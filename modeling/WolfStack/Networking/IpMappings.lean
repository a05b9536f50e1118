import WolfStack.Effects.Purges
import WolfStack.Router.Routes
import Mathlib.Logic.Function.Basic

/-! Mappings of public addresses to WolfNet addresses, and the rules of iptables that stand
for them. A rule is known by its listing, which is what `iptables -S` shows of it after the
name of the chain. -/

namespace Networking
open Auth Router

structure IpMapping where
  id : String
  publicIp : String
  wolfnetIp : String
  ports : Option String
  destPorts : Option String
  protocol : String
  enabled : Bool
deriving DecidableEq, Repr

inductive Chain where
  | prerouting
  | output
  | postrouting
  | forward
deriving DecidableEq, Repr

namespace Chain

def name : Chain → String
  | prerouting => "PREROUTING"
  | output => "OUTPUT"
  | postrouting => "POSTROUTING"
  | forward => "FORWARD"

def table : Chain → List String
  | forward => []
  | _ => ["-t", "nat"]

end Chain

structure Instance where
  status : Option String
  wolfnetIp : Option String

structure Service where
  serviceIp : Option String
  lbPolicy : Option String
  instances : List Instance

/-- The backends of the service that has this address, and how they share its load. -/
def resolveWolfrunVip (services : List Service) (ip : String) : Option (List String × String) :=
  (services.find? fun svc => svc.serviceIp = some ip).map fun svc =>
    ((svc.instances.filter fun i => i.status = some "running").filterMap Instance.wolfnetIp, svc.lbPolicy.getD "round_robin")

structure Host where
  /-- The listing of the rule that arguments denote, or what iptables says when it refuses them. -/
  denotes : List String → Except String String
  /-- `detect_wolfnet_gateway_ip`. -/
  gateway : Option String
  services : List Service
  /-- The text of a probability of one in so many. -/
  probability : Nat → String

/-- Only a service with backends counts as one. -/
def Host.backends (host : Host) (m : IpMapping) : Option (List String × String) :=
  (resolveWolfrunVip host.services m.wolfnetIp).filter fun vip => vip.1 ≠ []

/-- `u16::from_str`. -/
def parseU16 (chars : List Char) : Option Nat := (parseU32 chars).filter (· ≤ 65535)

def parsePort (text : String) : Except String Nat :=
  match parseU16 text.toList with
  | some port => .ok port
  | none => .error ("Invalid port number: '" ++ text ++ "'")

def parsePortPart (part : String) : Except String (List Nat) :=
  if part = "" then .ok []
  else if ':' ∈ part.toList then
    match splitOn ':' part.toList with
    | [lo, hi] => do
      let lo ← parsePort (trim (String.ofList lo))
      let hi ← parsePort (trim (String.ofList hi))
      if hi < lo then throw ("Invalid port range: " ++ toString lo ++ " > " ++ toString hi)
      if 1000 < hi - lo then
        throw ("Port range " ++ toString lo ++ ":" ++ toString hi ++ " is too large (max 1000 ports)")
      return (List.range (hi - lo + 1)).map (lo + ·)
    | _ => .error ("Invalid port range: '" ++ part ++ "'")
  else (parsePort part).map fun port => [port]

def parsePortList (portsStr : String) : Except String (List Nat) :=
  (splitOn ',' portsStr.toList).foldlM (fun result part => do
    return result ++ (← parsePortPart (trim (String.ofList part)))) []

def buildPortArgs (ports : String) : List String :=
  if ',' ∈ ports.toList then ["-m", "multiport", "--dports", ports] else ["--dport", ports]

def portArgs (ports : Option String) (protocol : String) : List String :=
  match ports with
  | some ports => if ports ≠ "" ∧ protocol ≠ "all" then buildPortArgs ports else []
  | none => []

/-- The text that `buildPortArgs` puts into a rule. -/
def portPurgeMarker (ports : Option String) (protocol : String) : Option String :=
  ports.bind fun ports =>
    if ports = "" ∨ protocol = "all" then none
    else if ',' ∈ ports.toList then some ("--dports " ++ ports)
    else some ("--dport " ++ ports)

/-- A rule that is added, at the top of its chain or at its end. Where it is checked, it is
added only if it is not there. -/
structure Command where
  chain : Chain
  top : Bool
  checked : Bool
  args : List String

def Command.words (c : Command) : List String :=
  c.chain.table ++ (if c.top then ["-I", c.chain.name, "1"] else ["-A", c.chain.name]) ++ c.args

namespace IpMapping

def protoArgs (m : IpMapping) : List String := if m.protocol ≠ "all" then ["-p", m.protocol] else []

def hasPortTranslation (m : IpMapping) : Bool :=
  match m.destPorts with
  | some dp => dp ≠ "" && m.ports ≠ some dp
  | none => false

def quartet (m : IpMapping) (gatewayIp : String) (src dest : List String) (dnatTarget : String) : List Command :=
  [⟨.prerouting, false, true, ["-d", m.publicIp] ++ m.protoArgs ++ src ++ ["-j", "DNAT", "--to-destination", dnatTarget]⟩,
    ⟨.output, false, true, ["-d", m.publicIp] ++ m.protoArgs ++ src ++ ["-j", "DNAT", "--to-destination", dnatTarget]⟩,
    ⟨.postrouting, false, true, ["-d", m.wolfnetIp] ++ m.protoArgs ++ dest ++ ["-j", "SNAT", "--to-source", gatewayIp]⟩,
    ⟨.forward, true, true, ["-d", m.wolfnetIp] ++ m.protoArgs ++ dest ++ ["-m", "conntrack", "--ctstate", "DNAT", "-j", "ACCEPT"]⟩]

/-- Several ports that are translated have rules of their own each. -/
def standardCommands (m : IpMapping) (gatewayIp : String) : Except String (List Command) :=
  if m.hasPortTranslation && m.destPorts.any (fun dp => ',' ∈ dp.toList) then do
    let spList ← parsePortList (m.ports.getD "")
    let dpList ← parsePortList (m.destPorts.getD "")
    return (spList.zip dpList).flatMap fun (sp, dp) =>
      m.quartet gatewayIp ["--dport", toString sp] ["--dport", toString dp] (m.wolfnetIp ++ ":" ++ toString dp)
  else
    let dnatDest := if m.hasPortTranslation then m.wolfnetIp ++ ":" ++ m.destPorts.getD "" else m.wolfnetIp
    return m.quartet gatewayIp (portArgs m.ports m.protocol) (portArgs (m.destPorts.or m.ports) m.protocol) dnatDest

def vipComment (m : IpMapping) : String := "wolfstack-vip-map-" ++ m.id

end IpMapping

/-- How a backend comes to have its share when so many remain. -/
def Host.distribution (host : Host) (lbPolicy : String) (remaining : Nat) : List String :=
  if 1 < remaining then
    if lbPolicy = "ip_hash" then ["-m", "statistic", "--mode", "random", "--probability", host.probability remaining]
    else ["-m", "statistic", "--mode", "nth", "--every", toString remaining, "--packet", "0"]
  else []

/-- `apply_vip_mapping_rules`. -/
def Host.vipCommands (host : Host) (m : IpMapping) (backends : List String) (lbPolicy gatewayIp : String) : List Command :=
  let destPort := (m.destPorts.or m.ports).getD ""
  let dnat (chain : Chain) : List Command := backends.zipIdx.map fun (backend, i) =>
    let dnatDest := if destPort ≠ "" then backend ++ ":" ++ destPort else backend
    Command.mk chain false false (["-d", m.publicIp] ++ m.protoArgs ++ portArgs m.ports m.protocol ++
      host.distribution lbPolicy (backends.length - i) ++
      ["-j", "DNAT", "--to-destination", dnatDest, "-m", "comment", "--comment", m.vipComment])
  dnat .prerouting ++ dnat .output ++ backends.flatMap fun backend =>
    [⟨.postrouting, false, false, ["-d", backend] ++ m.protoArgs ++
        ["-m", "comment", "--comment", m.vipComment, "-j", "SNAT", "--to-source", gatewayIp]⟩,
      ⟨.forward, true, false, ["-d", backend] ++ m.protoArgs ++
        ["-m", "conntrack", "--ctstate", "DNAT", "-m", "comment", "--comment", m.vipComment, "-j", "ACCEPT"]⟩]

/-- What `apply_mapping_rules` goes on to add once it has purged. -/
def Host.commands (host : Host) (m : IpMapping) : Except String (List Command) :=
  match host.gateway with
  | none => .error "Cannot detect WolfNet gateway IP — is WolfNet running?"
  | some gatewayIp => match host.backends m with
    | some (backends, lbPolicy) => .ok (host.vipCommands m backends lbPolicy gatewayIp)
    | none => m.standardCommands gatewayIp

abbrev Tables := Chain → List String

/-- `run_iptables`, and `run_iptables_vec` where nothing is checked. -/
def Host.run (host : Host) (c : Command) (t : Tables) : Except String Unit × Tables :=
  match host.denotes c.args with
  | .error stderr => (.error ("iptables " ++ " ".intercalate c.words ++ " failed: " ++ stderr), t)
  | .ok rule =>
    if c.checked ∧ rule ∈ t c.chain then (.ok (), t)
    else (.ok (), Function.update t c.chain (if c.top then rule :: t c.chain else t c.chain ++ [rule]))

def Host.runAll (host : Host) : List Command → Tables → Except String Unit × Tables
  | [], t => (.ok (), t)
  | c :: rest, t => match host.run c t with
    | (.ok (), t) => host.runAll rest t
    | (.error e, t) => (.error e, t)

/-- `run_iptables` with `-D`. The form in which it checks is the deletion itself. -/
def Host.delete (host : Host) (t : Tables) (c : Command) : Tables :=
  match host.denotes c.args with
  | .error _ => t
  | .ok rule => Function.update t c.chain ((t c.chain).erase rule)

def contains (text part : String) : Bool := decide (part.toList <:+: text.toList)

def ruleSpecMatches (line addPrefix : String) (markers : List String) : Bool :=
  addPrefix.toList.isPrefixOf line.toList && markers.all (contains line)

def lineMatches (chain : Chain) (markers : List String) (spec : String) : Bool :=
  ruleSpecMatches ("-A " ++ chain.name ++ " " ++ spec) ("-A " ++ chain.name ++ " ") markers

def Host.retyped (host : Host) (spec : String) : Option String :=
  (host.denotes ((splitWhitespace spec.toList).map String.ofList)).toOption

def Host.purgeMatchingLines (host : Host) (chain : Chain) (markers : List String) (t : Tables) : Tables :=
  let specs := (((t chain).filter (lineMatches chain markers)).mergeSort fun a b => decide (a ≤ b)).dedup
  Function.update t chain (Purges.sweep host.retyped specs 200000 (t chain)).2

def Host.removeRulesByComment (host : Host) (comment : String) (t : Tables) : Tables :=
  [.prerouting, .output, .postrouting, .forward].foldl (fun t chain => host.purgeMatchingLines chain [comment] t) t

namespace IpMapping

def markers (m : IpMapping) : Chain → List String
  | .prerouting | .output => [m.publicIp, "DNAT"] ++ (portPurgeMarker m.ports m.protocol).toList
  | .postrouting => [m.wolfnetIp, "SNAT"] ++ (portPurgeMarker (m.destPorts.or m.ports) m.protocol).toList
  | .forward => [m.wolfnetIp, "ctstate DNAT"] ++ (portPurgeMarker (m.destPorts.or m.ports) m.protocol).toList

end IpMapping

def Host.purgeMappingRules (host : Host) (m : IpMapping) (t : Tables) : Tables :=
  let t := [.prerouting, .output, .postrouting, .forward].foldl (fun t chain => host.purgeMatchingLines chain (m.markers chain) t) t
  host.removeRulesByComment m.vipComment t

def Host.applyMappingRules (host : Host) (m : IpMapping) (t : Tables) : Except String Unit × Tables :=
  if !m.enabled then (.ok (), t)
  else
    let t := host.purgeMappingRules m t
    match host.commands m with
    | .error e => (.error e, t)
    | .ok commands => host.runAll commands t

def Host.ensureEstablished (host : Host) (t : Tables) : Tables :=
  (host.run ⟨.forward, false, true, ["-m", "conntrack", "--ctstate", "ESTABLISHED,RELATED", "-j", "ACCEPT"]⟩ t).2

/-- How many mappings failed, and the tables. -/
def Host.applyIpMappings (host : Host) (mappings : List IpMapping) (t : Tables) : Nat × Tables :=
  mappings.foldl (fun (failed, t) m =>
    if !m.enabled then (failed, t)
    else match host.applyMappingRules m t with
      | (.ok (), t) => (failed, t)
      | (.error _, t) => (failed + 1, t)) (0, host.ensureEstablished t)

/-- Ports that cannot be read have no rules to remove. -/
def Host.removeMappingRules (host : Host) (m : IpMapping) (t : Tables) : Tables :=
  let t := host.removeRulesByComment m.vipComment t
  match m.standardCommands (host.gateway.getD "") with
  | .ok commands => commands.foldl host.delete t
  | .error _ => t

structure Edit where
  publicIp : String
  wolfnetIp : String
  ports : Option String
  destPorts : Option String
  protocol : String

namespace Edit

def protocolOr (e : Edit) : String := if e.protocol = "" then "all" else e.protocol

def destPortsClean (e : Edit) : Option String := e.destPorts.filter fun s => trim s ≠ ""

def check (e : Edit) : Except String Unit := do
  if e.protocolOr ∉ ["all", "tcp", "udp"] then
    throw ("Invalid protocol '" ++ e.protocolOr ++ "'. Must be 'all', 'tcp', or 'udp'.")
  if let some portStr := e.ports.filter fun s => trim s ≠ "" then
    if e.protocolOr = "all" then throw "When specifying ports, you must select TCP or UDP (not 'All')."
    let _ ← parsePortList portStr
  if let some dpStr := e.destPortsClean then
    if e.ports.all fun s => trim s = "" then throw "Destination ports require source ports to be specified too."
    let dpList ← parsePortList dpStr
    let spList ← parsePortList (e.ports.getD "")
    if dpList.length ≠ spList.length then
      throw ("Source ports (" ++ toString spList.length ++ ") and destination ports (" ++ toString dpList.length ++
        ") must have the same count.")

def on (e : Edit) (m : IpMapping) : IpMapping :=
  { m with publicIp := e.publicIp, wolfnetIp := e.wolfnetIp, ports := e.ports, destPorts := e.destPortsClean, protocol := e.protocolOr }

end Edit

/-- The configuration is saved with what an operation returns. -/
def Host.removeIpMapping (host : Host) (mappings : List IpMapping) (id : String) (t : Tables) :
    Except String (List IpMapping) × Tables :=
  match mappings.find? fun m => m.id = id with
  | none => (.error ("Mapping '" ++ id ++ "' not found"), t)
  | some mapping => (.ok (mappings.eraseP fun m => m.id = id), host.removeMappingRules mapping t)

/-- The old rules are gone by the time that the new values are looked at. -/
def Host.updateIpMapping (host : Host) (mappings : List IpMapping) (id : String) (e : Edit) (t : Tables) :
    Except String IpMapping × Tables :=
  match mappings.find? fun m => m.id = id with
  | none => (.error ("Mapping '" ++ id ++ "' not found"), t)
  | some old =>
    let t := host.removeMappingRules old t
    match e.check with
    | .error message => (.error message, t)
    | .ok () => match host.applyMappingRules (e.on old) t with
      | (.error message, t) => (.error message, t)
      | (.ok (), t) => (.ok (e.on old), t)

end Networking
