import WolfStack.Router.Lines

/-! The files that stand for a LAN and for a PPPoE link: how they are written, and how they
are read when the configuration has been lost. -/

namespace Router
open Auth

inductive Zone where
  | wan
  | lan (id : Nat)
  | dmz
  | wolfnet
  | trusted
  | custom (name : String)
deriving DecidableEq, Repr

structure DhcpReservation where
  mac : String
  ip : String
  hostname : Option String

structure DhcpConfig where
  poolStart : String
  poolEnd : String
  leaseTime : String
  reservations : List DhcpReservation
  extraOptions : List String
  enabled : Bool

inductive DnsMode where
  | wolfRouter
  | external
deriving DecidableEq, Repr

structure LocalDnsRecord where
  hostname : String
  ip : String

structure WildcardDomain where
  domain : String
  ip : String

structure DnsServerConfig where
  mode : DnsMode
  listenPort : Nat
  externalServer : Option String
  forwarders : List String
  localRecords : List LocalDnsRecord
  wildcardDomains : List WildcardDomain
  cacheEnabled : Bool
  blockAds : Bool
  queryLog : Bool
  forwardClientSubnet : Bool

def DnsServerConfig.default : DnsServerConfig := ⟨.wolfRouter, 53, none, ["1.1.1.1", "9.9.9.9"], [], [], true, false, false, false⟩

structure LanSegment where
  id : String
  name : String
  nodeId : String
  interface : String
  zone : Zone
  subnetCidr : String
  routerIp : String
  dhcp : DhcpConfig
  dns : DnsServerConfig
  description : String

def dottedQuad (mask : Nat) : String :=
  toString (mask / 2 ^ 24 % 256) ++ "." ++ toString (mask / 2 ^ 16 % 256) ++ "." ++ toString (mask / 2 ^ 8 % 256) ++ "." ++ toString (mask % 256)

def prefixToNetmask (prefix_ : Nat) : String :=
  if 32 ≤ prefix_ then "255.255.255.255" else dottedQuad (maskV4 prefix_).toNat

/-- `str::trim_start_matches("*.")`. -/
def trimStars : List Char → List Char
  | '*' :: '.' :: rest => trimStars rest
  | chars => chars

/-- Nothing is written for what would not make a directive. -/
def renderWildcardLine (wc : WildcardDomain) : Option String :=
  let domain := (trimStars (trimChars wc.domain.toList)).dropWhile (· = '.')
  let ip := trim wc.ip
  if domain = [] || domain.contains '/' || domain.contains '#' || domain.any isWhitespace || (parseIp ip).isNone then none
  else some ("address=/" ++ String.ofList domain ++ "/" ++ ip)

def dhcpHost (r : DhcpReservation) : String :=
  let host := r.hostname.getD ""
  if host = "" then "dhcp-host=" ++ r.mac ++ "," ++ r.ip else "dhcp-host=" ++ r.mac ++ "," ++ r.ip ++ "," ++ host

def dhcpLines (lan : LanSegment) (netmask : String) : List String :=
  ["dhcp-range=" ++ lan.dhcp.poolStart ++ "," ++ lan.dhcp.poolEnd ++ "," ++ netmask ++ "," ++ lan.dhcp.leaseTime,
    "dhcp-option=3," ++ lan.routerIp,
    "dhcp-option=6," ++ lan.dns.externalServer.getD lan.routerIp] ++
  lan.dhcp.reservations.map dhcpHost ++
  lan.dhcp.extraOptions.map fun opt => "dhcp-option=" ++ opt

def dnsLines (lan : LanSegment) (adblockHosts : Bool) : List String :=
  match lan.dns.mode with
  | .external => ["# DNS disabled: WolfRouter DHCP-only, client DNS via external_server.", "port=0"]
  | .wolfRouter =>
    ["port=" ++ toString lan.dns.listenPort, "cache-size=" ++ toString (if lan.dns.cacheEnabled then 1500 else 0)] ++
    (lan.dns.forwarders.map fun fwd => "server=" ++ fwd) ++
    (if lan.dns.forwardClientSubnet then ["add-subnet=32,128"] else []) ++
    (lan.dns.localRecords.map fun rec => "host-record=" ++ rec.hostname ++ "," ++ rec.ip) ++
    lan.dns.wildcardDomains.filterMap renderWildcardLine ++
    (if lan.dns.blockAds && adblockHosts then ["addn-hosts=/etc/wolfstack/router/adblock-hosts"] else []) ++
    (if lan.dns.queryLog then ["log-queries", "log-facility=/var/lib/wolfstack-router/lan-" ++ lan.id ++ ".log"] else [])

def headLines (lan : LanSegment) (bindIface : String) : List String :=
  ["# WolfRouter LAN: " ++ lan.name ++ " (" ++ lan.id ++ ")", "# Managed by WolfStack — do not edit by hand."] ++
  (if bindIface ≠ lan.interface then
    ["# Self-heal active: configured interface is '" ++ lan.interface ++ "', but router_ip " ++ lan.routerIp ++ " is on '" ++
      bindIface ++ "', so dnsmasq is bound to '" ++ bindIface ++ "'."] else []) ++
  ["interface=" ++ bindIface, "bind-interfaces", "except-interface=lo",
    "pid-file=/run/wolfstack-router/lan-" ++ lan.id ++ ".pid",
    "dhcp-leasefile=/var/lib/wolfstack-router/lan-" ++ lan.id ++ ".leases",
    "no-resolv", "no-hosts", "no-poll", "dhcp-authoritative"]

/-- What `render_config_for_iface` writes to the file. `adblockHosts` says whether the list of
hosts is there. -/
def renderConfigForIface (lan : LanSegment) (bindIface : String) (adblockHosts : Bool) : Except String (List String) := do
  let dhcp ←
    if lan.dhcp.enabled then
      match parseCidr lan.subnetCidr with
      | none => throw ("Bad subnet_cidr: " ++ lan.subnetCidr)
      | some (_, prefix_) => pure (dhcpLines lan (prefixToNetmask prefix_))
    else pure []
  return headLines lan bindIface ++ dhcp ++ dnsLines lan adblockHosts

structure LanDraft where
  interface : Option String
  dhcpStart : Option String
  dhcpEnd : Option String
  dhcpLease : Option String
  routerIp : Option String
  dnsServers : List String

namespace LanDraft

def empty : LanDraft := ⟨none, none, none, none, none, []⟩

def readRange (d : LanDraft) (v : List Char) : LanDraft :=
  match (splitOn ',' v).map fun s => String.ofList (trimChars s) with
  | start :: end_ :: rest => { d with dhcpStart := some start, dhcpEnd := some end_, dhcpLease := rest.head?.or d.dhcpLease }
  | _ => d

def readOption (d : LanDraft) (v : List Char) : LanDraft :=
  match splitOnce ',' v with
  | none => d
  | some (code, value) =>
    let code := String.ofList (trimChars code)
    let value := trimChars value
    if code = "3" then { d with routerIp := some (String.ofList value) }
    else if code = "6" then
      { d with dnsServers := d.dnsServers ++ (((splitOn ',' value).map trimChars).filter (· ≠ [])).map String.ofList }
    else d

def read (d : LanDraft) (rawLine : List Char) : LanDraft :=
  let line := trimChars rawLine
  if line.head? = none || line.head? = some '#' then d
  else match stripPrefix "interface=".toList line with
    | some v => { d with interface := some (String.ofList (trimChars v)) }
    | none => match stripPrefix "dhcp-range=".toList line with
      | some v => d.readRange v
      | none => match stripPrefix "dhcp-option=".toList line with
        | some v => d.readOption v
        | none => d

end LanDraft

def deriveSubnetCidr (routerIp poolStart : String) : String :=
  match splitOn '.' routerIp.toList, splitOn '.' poolStart.toList with
  | [a, b, c, _], [a', b', c', _] =>
    if [a, b, c] = [a', b', c'] then String.ofList a ++ "." ++ String.ofList b ++ "." ++ String.ofList c ++ ".0/24" else ""
  | _, _ => ""

def parseLanFromDnsmasq (id : String) (body : List Char) : Option LanSegment :=
  let d := (lines body).foldl LanDraft.read .empty
  match d.interface with
  | none => none
  | some iface =>
    let poolStart := d.dhcpStart.getD ""
    let poolEnd := d.dhcpEnd.getD ""
    if poolStart = "" || poolEnd = "" then none
    else
      let router := d.routerIp.getD ""
      some {
        id
        name := "LAN " ++ id ++ " (recovered)"
        nodeId := ""
        interface := iface
        zone := .lan ((parseU32 id.toList).getD 0)
        subnetCidr := deriveSubnetCidr router poolStart
        routerIp := router
        dhcp := ⟨poolStart, poolEnd, d.dhcpLease.getD "12h", [], [], true⟩
        dns := { DnsServerConfig.default with forwarders := d.dnsServers }
        description := "Reconstructed from dnsmasq.d snippet — review before committing" }

structure StaticConfig where
  addressCidr : String
  gateway : String
  dns : List String

structure PppoeConfig where
  username : String
  password : String
  serviceName : String
  mtu : Nat
  mru : Nat
  persist : Bool
  lcpEchoInterval : Nat
  lcpEchoFailure : Nat
  useDefaultRoute : Bool
  usePeerDns : Bool

inductive WanMode where
  | dhcp
  | static (config : StaticConfig)
  | pppoe (config : PppoeConfig)

structure WanConnection where
  id : String
  name : String
  nodeId : String
  interface : String
  mode : WanMode
  enabled : Bool
  description : String

def noNewlines (field v : String) : Except String Unit :=
  if '\n' ∈ v.toList ∨ '\r' ∈ v.toList then .error (field ++ " contains newline characters") else .ok ()

def isInterfaceChar (c : Char) : Bool := c.isAlphanum || c == '.' || c == '-' || c == '_'

def validateMode : WanMode → Except String Unit
  | .dhcp => .ok ()
  | .static s => do
    noNewlines "address_cidr" s.addressCidr
    noNewlines "gateway" s.gateway
    for d in s.dns do noNewlines "dns" d
  | .pppoe p => do
    noNewlines "username" p.username
    noNewlines "password" p.password
    noNewlines "service_name" p.serviceName
    if '"' ∈ p.username.toList then throw "username contains double quotes"
    if '"' ∈ p.password.toList then throw "password contains double quotes"
    if p.username = "" then throw "PPPoE username is required"

/-- `wan::validate`. -/
def WanConnection.validate (conn : WanConnection) : Except String Unit := do
  noNewlines "name" conn.name
  noNewlines "interface" conn.interface
  noNewlines "description" conn.description
  if !conn.interface.toList.all isInterfaceChar then throw "interface name has illegal characters"
  validateMode conn.mode

/-- The lines of the peer file that `pppoe_apply` writes. -/
def pppoePeer (conn : WanConnection) (cfg : PppoeConfig) : List String :=
  ["# WolfRouter PPPoE peer for connection " ++ conn.id ++ " (" ++ conn.name ++ ")",
    "# Managed by WolfStack — do not edit by hand.",
    "plugin pppoe.so " ++ conn.interface,
    "name \"" ++ cfg.username ++ "\""] ++
  (if cfg.serviceName ≠ "" then ["rp_pppoe_service \"" ++ cfg.serviceName ++ "\""] else []) ++
  ["noauth", "hide-password", "noipdefault"] ++
  (if cfg.useDefaultRoute then ["defaultroute", "replacedefaultroute"] else ["nodefaultroute"]) ++
  (if cfg.usePeerDns then ["usepeerdns"] else []) ++
  ["noaccomp", "default-asyncmap", "mtu " ++ toString cfg.mtu, "mru " ++ toString cfg.mru] ++
  (if cfg.persist then ["persist", "maxfail 0"] else []) ++
  (if 0 < cfg.lcpEchoInterval then ["lcp-echo-interval " ++ toString cfg.lcpEchoInterval,
    "lcp-echo-failure " ++ toString cfg.lcpEchoFailure] else [])

/-- `str::trim_matches('"')`. -/
def trimQuotes (chars : List Char) : List Char := ((chars.dropWhile (· = '"')).reverse.dropWhile (· = '"')).reverse

structure PeerDraft where
  interface : Option String
  username : Option String
  mtu : Nat
  mru : Nat
  lcpInterval : Nat
  lcpFailure : Nat
  useDefaultRoute : Bool
  usePeerDns : Bool
  persist : Bool
  isPppoe : Bool
  serviceName : String

namespace PeerDraft

def empty : PeerDraft := ⟨none, none, 1492, 1492, 30, 4, false, false, true, false, ""⟩

/-- The numbers, the flags and the service name, which come after plugin and user. -/
def readRest (d : PeerDraft) (line : List Char) : PeerDraft :=
  match stripPrefix "mtu ".toList line with
  | some v => { d with mtu := (parseU32 (trimChars v)).getD d.mtu }
  | none => match stripPrefix "mru ".toList line with
    | some v => { d with mru := (parseU32 (trimChars v)).getD d.mru }
    | none => match stripPrefix "lcp-echo-interval ".toList line with
      | some v => { d with lcpInterval := (parseU32 (trimChars v)).getD d.lcpInterval }
      | none => match stripPrefix "lcp-echo-failure ".toList line with
        | some v => { d with lcpFailure := (parseU32 (trimChars v)).getD d.lcpFailure }
        | none =>
          if line = "defaultroute".toList then { d with useDefaultRoute := true }
          else if line = "usepeerdns".toList then { d with usePeerDns := true }
          else if line = "nopersist".toList then { d with persist := false }
          else match stripPrefix "rp_pppoe_service ".toList line with
            | some v => { d with serviceName := String.ofList (trimQuotes (trimChars v)) }
            | none => d

def read (d : PeerDraft) (rawLine : List Char) : PeerDraft :=
  let line := trimChars rawLine
  if line.head? = none || line.head? = some '#' then d
  else match stripPrefix "plugin rp-pppoe.so".toList line with
    | some v =>
      let iface := trimChars v
      { d with isPppoe := true, interface := if iface ≠ [] then some (String.ofList iface) else d.interface }
    | none => match stripPrefix "user ".toList line with
      | some v =>
        let unquoted := trimQuotes (trimChars v)
        { d with username := if unquoted ≠ [] then some (String.ofList unquoted) else d.username }
      | none => d.readRest line

end PeerDraft

def parsePppoeFromPeer (id : String) (body : List Char) : Option WanConnection :=
  let d := (lines body).foldl PeerDraft.read .empty
  if !d.isPppoe then none
  else d.username.map fun user => {
    id
    name := "WAN " ++ id ++ " (recovered)"
    nodeId := ""
    interface := d.interface.getD ""
    mode := .pppoe ⟨user, "", d.serviceName, d.mtu, d.mru, d.persist, d.lcpInterval, d.lcpFailure, d.useDefaultRoute, d.usePeerDns⟩
    enabled := false
    description := "Reconstructed from /etc/ppp/peers — review and re-enter password before enabling" }

end Router
