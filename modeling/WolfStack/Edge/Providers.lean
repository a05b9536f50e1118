import WolfStack.Edge.Reconcile
import WolfStack.Lists.Tending

/-! What the driver does at the providers, name by name, and when it comes to rest. The providers do what they are asked;
only a record that is there cannot be made again. -/

open scoped List

namespace Edge
open Tending

def trimEndDots (chars : List Char) : List Char := (chars.reverse.dropWhile (· = '.')).reverse

/-- The last two labels of a name. -/
def stripToZone (fqdn : String) : String :=
  let fqdn := trimEndDots (Auth.trim fqdn).toList
  let parts := fqdn.splitOn '.'
  if parts.length ≤ 2 then String.ofList fqdn else String.ofList (['.'].intercalate (parts.drop (parts.length - 2)))

/-- The name of a record as Hetzner has it, without the zone. -/
def shortenToZone (fqdn zoneApex : String) : String :=
  let fqdn := trimEndDots fqdn.toList
  let apex := trimEndDots zoneApex.toList
  if fqdn = apex then "@"
  else if ('.' :: apex).isSuffixOf fqdn then String.ofList (fqdn.take (fqdn.length - (apex.length + 1)))
  else String.ofList fqdn

inductive EdgeStrategy where
  | local_
  | dnsRoundRobin (dnsProviderId : String) (ttlSeconds : Nat)
  | cloudflareDns (dnsProviderId : String) (ttlSeconds : Nat)
  | hetznerLb (cloudProviderId lbName : String)
  | digitalOceanLb (cloudProviderId lbName : String)
  | cloudflareTunnel (cloudProviderId dnsProviderId tunnelName : String)

def EdgeStrategy.managesDns : EdgeStrategy → Bool
  | .local_ => false
  | _ => true

structure EdgeProxy where
  id : String
  serverNames : List String
  targets : List String
  edge : EdgeStrategy

def EdgeProxy.plain (p : EdgeProxy) : HttpProxy := ⟨p.id, p.serverNames, p.targets, p.edge.managesDns⟩

/-- The live addresses of a proxy, each once. -/
abbrev LiveIps := { ips : List String // ips.Nodup }

def EdgeProxy.live (p : EdgeProxy) (snapshot : ClusterSnapshot) : LiveIps := ⟨liveIpsFor p.plain snapshot, List.nodup_dedup _⟩

structure DnsProvider where
  name : String
  plugin : String

inductive CloudProviderKind where
  | cloudflare
  | hetzner
  | digitalOcean
deriving DecidableEq

def CloudProviderKind.label : CloudProviderKind → String
  | .cloudflare => "cloudflare"
  | .hetzner => "hetzner"
  | .digitalOcean => "digitalocean"

structure CloudCreds where
  accountId : String
  apiToken : String

structure CloudProvider where
  name : String
  kind : CloudProviderKind
  /-- What is stored, or why it cannot be read. -/
  credentials : Except String CloudCreds

/-- The stores of credentials. A token is found in the file of a DNS provider by the key of its line. -/
structure Setup where
  dnsProviders : String → Option DnsProvider
  token : (id key : String) → Except String String
  cloudProviders : String → Option CloudProvider

structure DoDroplet where
  id : Nat
  v4Ips : List String

/-- A place at a provider: the records of a name, or a balancer of the project that a token is for. -/
inductive Place where
  | records (plugin zone name : String)
  | hetznerLb (project name : String)
  | digitalOceanLb (project name : String)
deriving DecidableEq

/-- What the providers answer all through. -/
structure Api where
  zone : (plugin token zone : String) → Option String
  project : String → String
  droplets : String → List DoDroplet
  /-- Id and address of a new balancer. -/
  newBalancer : Place → String × String
  /-- Id and token of a new tunnel of an account. -/
  newTunnel : (accountId name : String) → String × String
  /-- The answer where a record is there already. -/
  refusal : String

inductive Content where
  | ip (text : String)
  | droplet (id : Nat)
deriving DecidableEq

def Content.text : Content → String
  | .ip text => text
  | .droplet id => toString id

/-- A record of type A, or a target of a balancer, which has no TTL. -/
structure Entry where
  content : Content
  ttl : Option Nat
  proxied : Bool
deriving DecidableEq

structure IngressRule where
  hostname : Option String
  service : String
deriving DecidableEq

structure World where
  kept : Place → Option (List Entry)
  tunnels : (String × String) → Option String
  ingress : String → List IngressRule
  cnames : (String × String) → Option String

namespace World

def entries (w : World) (place : Place) : List Entry := (w.kept place).getD []

def keep (w : World) (place : Place) (entries : List Entry) : World := { w with kept := Function.update w.kept place (some entries) }

end World

structure ProxyReconcileReport where
  proxyId : String
  serverNames : List String
  before : List String
  after : List String
  added : Nat
  removed : Nat
  unchanged : Nat
  errors : List String

def sorted (texts : List String) : List String := texts.mergeSort fun a b => decide (a ≤ b)

def wishOf (contents : List Content) (nodup : contents.Nodup) (ttl : Option Nat) (proxied : Bool) : Wish Entry.content where
  keys := contents
  make content := ⟨content, ttl, proxied⟩
  nodup := nodup
  made _ := rfl

theorem ips_nodup (live : LiveIps) : (live.val.map Content.ip).Nodup := live.property.map fun _ _ same => Content.ip.inj same

def recordWish (live : LiveIps) (ttl : Nat) (proxied : Bool) : Wish Entry.content :=
  wishOf (live.val.map .ip) (ips_nodup live) (some ttl) proxied

def targetWish (live : LiveIps) : Wish Entry.content := wishOf (live.val.map .ip) (ips_nodup live) none false

def dropletOf (droplets : List DoDroplet) (ip : String) : Option Nat := (droplets.find? fun d => ip ∈ d.v4Ips).map DoDroplet.id

def dropletWish (droplets : List DoDroplet) (live : LiveIps) : Wish Entry.content :=
  wishOf ((live.val.filterMap (dropletOf droplets)).dedup.map .droplet)
    ((List.nodup_dedup _).map fun _ _ same => Content.droplet.inj same) none false

section
variable (setup : Setup) (api : Api)

/-- What is listed is compared by the addresses alone: those that are missing are made, those that are not live are deleted. -/
def reconcileKept (place : Place) (wish : Wish Entry.content) (live : LiveIps) (w : World) : Except String ProxyReconcileReport × World :=
  let existing := w.entries place
  (.ok {
    proxyId := "", serverNames := []
    before := sorted (existing.map fun e => e.content.text)
    after := sorted live.val
    added := (wish.missing existing).length
    removed := (wish.stale existing).length
    unchanged := (wish.keys.filter fun k => k ∈ existing.map Entry.content).length
    errors := [] }, w.keep place (wish.tend existing))

def reconcileCloudflare (token serverName : String) (live : LiveIps) (ttl : Nat) (proxied : Bool) (w : World) :
    Except String ProxyReconcileReport × World :=
  let zoneName := stripToZone serverName
  match api.zone "cloudflare" token zoneName with
  | none => (.error s!"cloudflare token doesn't see zone '{zoneName}' — give the token Zone:Read + DNS:Edit on this zone", w)
  | some zoneId =>
    reconcileKept (.records "cloudflare" zoneId serverName) (recordWish live (if proxied then 1 else max ttl 60) proxied) live w

def reconcileHetznerDns (token serverName : String) (live : LiveIps) (ttl : Nat) (w : World) : Except String ProxyReconcileReport × World :=
  let zoneName := stripToZone serverName
  match api.zone "hetzner" token zoneName with
  | none => (.error (s!"hetzner DNS token doesn't see zone '{zoneName}' — " ++
      "add it in the Hetzner DNS console or grant access on the token"), w)
  | some zoneId => reconcileKept (.records "hetzner" zoneId (shortenToZone serverName zoneName)) (recordWish live ttl false) live w

/-- DigitalOcean has the name of the zone for its id. -/
def reconcileDigitaloceanDns (token serverName : String) (live : LiveIps) (ttl : Nat) (w : World) :
    Except String ProxyReconcileReport × World :=
  let zone := stripToZone serverName
  match api.zone "digitalocean" token zone with
  | none => (.error s!"digitalocean account doesn't have domain '{zone}' — add it under Networking → Domains first", w)
  | some _ => reconcileKept (.records "digitalocean" zone serverName) (recordWish live (max ttl 30) false) live w

def reconcileHetznerLb (cloudProviderId lbName serverName : String) (live : LiveIps) (w : World) :
    Except String ProxyReconcileReport × World :=
  match setup.cloudProviders cloudProviderId with
  | none => (.error s!"cloud provider '{cloudProviderId}' not found", w)
  | some provider =>
    if provider.kind ≠ .hetzner then
      (.error s!"HetznerLb requires a hetzner cloud provider — '{provider.name}' is kind '{provider.kind.label}'.", w)
    else match provider.credentials with
      | .error e => (.error e, w)
      | .ok creds =>
        let place := Place.hetznerLb (api.project creds.apiToken) lbName
        match w.kept place with
        | none =>
          let publicIp := (api.newBalancer place).2
          (.ok {
            proxyId := "", serverNames := []
            before := []
            after := live.val
            added := live.val.length
            removed := 0
            unchanged := 0
            errors := [s!"Hetzner LB '{lbName}' created (public IP {publicIp}). Point DNS for {serverName} at this IP."] },
            w.keep place (targetWish live).goal)
        | some _ => reconcileKept place (targetWish live) live w

def reconcileDigitaloceanLb (cloudProviderId lbName : String) (live : LiveIps) (w : World) : Except String ProxyReconcileReport × World :=
  match setup.cloudProviders cloudProviderId with
  | none => (.error s!"cloud provider '{cloudProviderId}' not found", w)
  | some provider =>
    if provider.kind ≠ .digitalOcean then
      (.error s!"DigitalOceanLb requires a digitalocean cloud provider — '{provider.name}' is kind '{provider.kind.label}'.", w)
    else match provider.credentials with
      | .error e => (.error e, w)
      | .ok creds =>
        let droplets := api.droplets creds.apiToken
        let unresolved := (live.val.filter fun ip => dropletOf droplets ip = none).map fun ip =>
          s!"no DigitalOcean droplet in this account has IP {ip} — DO LBs can only target droplets"
        let wish := dropletWish droplets live
        let place := Place.digitalOceanLb (api.project creds.apiToken) lbName
        match w.kept place with
        | none =>
          let (id, ip) := api.newBalancer place
          (.ok {
            proxyId := "", serverNames := []
            before := []
            after := live.val
            added := (live.val.filterMap (dropletOf droplets)).length
            removed := 0
            unchanged := 0
            errors := s!"DigitalOcean LB '{lbName}' created (id {id}, ip {ip}). Point DNS at the LB IP." :: unresolved },
            w.keep place wish.goal)
        | some existing =>
          (.ok {
            proxyId := "", serverNames := []
            before := sorted live.val
            after := sorted live.val
            added := ((live.val.filterMap (dropletOf droplets)).filter fun id => .droplet id ∉ existing.map Entry.content).length
            removed := (wish.stale existing).length
            unchanged := (existing.map Entry.content).dedup.length - (wish.stale existing).length
            errors := unresolved }, w.keep place (wish.tend existing))

/-- Cloudflare wants a rule without a host name at the end. -/
def putTunnelConfiguration (rules : List IngressRule) : List IngressRule :=
  if (rules.getLast?.map fun r => r.hostname.isSome).getD true then rules ++ [⟨none, "http_status:404"⟩] else rules

/-- The configuration is replaced by the rule of the one name. -/
def reconcileCloudflareTunnel (cloudProviderId dnsProviderId tunnelName serverName : String) (w : World) :
    Except String ProxyReconcileReport × World :=
  match setup.cloudProviders cloudProviderId with
  | none => (.error s!"cloud provider '{cloudProviderId}' not found", w)
  | some provider =>
    if provider.kind ≠ .cloudflare then
      (.error s!"CloudflareTunnel requires a cloudflare cloud provider — '{provider.name}' is kind '{provider.kind.label}'.", w)
    else match provider.credentials with
      | .error e => (.error e, w)
      | .ok creds =>
        let known := w.tunnels (creds.accountId, tunnelName)
        let (tunnel, token) := match known with
          | some id => (id, "")
          | none => api.newTunnel creds.accountId tunnelName
        let w := { w with
          tunnels := Function.update w.tunnels (creds.accountId, tunnelName) (some tunnel)
          ingress := Function.update w.ingress tunnel (putTunnelConfiguration [⟨some serverName, "http://localhost:80"⟩]) }
        match setup.token dnsProviderId "dns_cloudflare_api_token" with
        | .error e => (.error e, w)
        | .ok dnsToken =>
          let zoneName := stripToZone serverName
          match api.zone "cloudflare" dnsToken zoneName with
          | none => (.error s!"cloudflare DNS token doesn't see zone '{zoneName}'", w)
          | some zoneId =>
            match w.cnames (zoneId, serverName) with
            | some _ => (.error api.refusal, w)
            | none =>
              let target := tunnel ++ ".cfargotunnel.com"
              (.ok {
                proxyId := "", serverNames := []
                before := []
                after := [target]
                added := 1
                removed := 0
                unchanged := 0
                errors := [if token = "" then
                    s!"Tunnel '{tunnelName}' ready. Run cloudflared on each target node — fetch the connector token via " ++
                      s!"/api/edge/cloudflare-tunnel/{tunnel}/token."
                  else s!"Tunnel '{tunnelName}' ready. Install cloudflared on each target node using the create-time token."] },
                { w with cnames := Function.update w.cnames (zoneId, serverName) (some target) })

/-- A proxy without a strategy is not asked for. -/
def reconcileOne (p : EdgeProxy) (serverName : String) (live : LiveIps) (w : World) : Except String ProxyReconcileReport × World :=
  match p.edge with
  | .local_ => (.error "filtered by manages_dns", w)
  | .dnsRoundRobin id ttl =>
    match setup.dnsProviders id with
    | none => (.error s!"dns provider '{id}' not found", w)
    | some provider =>
      if provider.plugin = "cloudflare" then
        match setup.token id "dns_cloudflare_api_token" with
        | .error e => (.error e, w)
        | .ok token => reconcileCloudflare api token serverName live ttl false w
      else if provider.plugin = "hetzner" then
        match setup.token id "dns_hetzner_api_token" with
        | .error e => (.error e, w)
        | .ok token => reconcileHetznerDns api token serverName live ttl w
      else if provider.plugin = "digitalocean" then
        match setup.token id "dns_digitalocean_token" with
        | .error e => (.error e, w)
        | .ok token => reconcileDigitaloceanDns api token serverName live ttl w
      else (.error (s!"DnsRoundRobin: DNS provider '{provider.name}' uses plugin '{provider.plugin}', which isn't supported yet. " ++
        "v23.2 supports cloudflare, hetzner, digitalocean — for others, switch the proxy's edge to Local."), w)
  | .cloudflareDns id ttl =>
    match setup.dnsProviders id with
    | none => (.error s!"dns provider '{id}' not found", w)
    | some provider =>
      if provider.plugin ≠ "cloudflare" then
        (.error s!"CloudflareDns requires a cloudflare DNS provider — '{provider.name}' has plugin '{provider.plugin}'.", w)
      else match setup.token id "dns_cloudflare_api_token" with
        | .error e => (.error e, w)
        | .ok token => reconcileCloudflare api token serverName live ttl true w
  | .hetznerLb id lbName => reconcileHetznerLb setup api id lbName serverName live w
  | .digitalOceanLb id lbName => reconcileDigitaloceanLb setup api id lbName live w
  | .cloudflareTunnel id dnsId tunnelName => reconcileCloudflareTunnel setup api id dnsId tunnelName serverName w

end

section
variable (setup : Setup) (api : Api) (snapshot : ClusterSnapshot)

/-- The names of the managed proxies, in the order in which they are gone through. -/
def managedNames (proxies : List EdgeProxy) : List (EdgeProxy × String) :=
  (proxies.filter fun p => p.edge.managesDns).flatMap fun p => p.serverNames.map fun name => (p, name)

def report (n : EdgeProxy × String) : Except String ProxyReconcileReport → ProxyReconcileReport
  | .ok r => { r with proxyId := n.1.id, serverNames := [n.2] }
  | .error e => ⟨n.1.id, [n.2], [], [], 0, 0, 0, [e]⟩

def visitName (n : EdgeProxy × String) (w : World) : Except String ProxyReconcileReport × World :=
  reconcileOne setup api n.1 n.2 (n.1.live snapshot) w

def passOver : List (EdgeProxy × String) → World → List ProxyReconcileReport × World
  | [], w => ([], w)
  | n :: rest, w =>
    let (result, w) := visitName setup api snapshot n w
    let (reports, w) := passOver rest w
    (report n result :: reports, w)

/-- `run_pass` at the node that drives. -/
def pass (proxies : List EdgeProxy) (w : World) : List ProxyReconcileReport × World :=
  passOver setup api snapshot (managedNames proxies) w

end

end Edge
