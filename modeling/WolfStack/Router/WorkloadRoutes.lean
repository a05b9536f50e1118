import WolfStack.Router.Routes
import Mathlib.Data.List.Nodup
import Mathlib.Data.List.Count

/-! Routes to the workload networks that other nodes advertise. Is every such network
reached from this node afterwards, and are no two routes in each other's way? -/

namespace Router
open Auth

structure Peer where
  name : String
  ip : String

structure GossipNode where
  hostname : String
  workloadSubnets : List String

structure RouteConfig where
  subnetRoutes : List SubnetRoute
  ipv6SubnetRouting : Bool
deriving DecidableEq, Repr

structure Surroundings where
  selfNodeId : String
  peers : List Peer
  ipv6Available : Bool
  tombstoned : List String
  /-- The nodes of the file, where it can be read. -/
  nodes : Option (List GossipNode)
  localSubnets : List String
  /-- The output of `ip route show` for a network. -/
  kernelRouteRaw : String → Except String String
  /-- The addresses of the WolfNet interface. -/
  own : List String
  now : Nat
  /-- Whether the configuration with what was added can be saved. -/
  saved : Bool

structure Wanted where
  cidr : String
  gateway : String
  peer : String
deriving DecidableEq, Repr

namespace Surroundings
variable (env : Surroundings)

/-- `hostname_to_ip`: the last peer of a name counts. -/
def hostnameToIp (hostname : String) : Option String :=
  ((env.peers.map fun p => (p.name, String.ofList (p.ip.toList.takeWhile (· ≠ '/')))).reverse.find? fun entry =>
    entry.1 ≠ "" ∧ entry.2 ≠ "" ∧ entry.1 = hostname).map Prod.snd

def v6Enabled (config : RouteConfig) : Bool := config.ipv6SubnetRouting && env.ipv6Available

def admits (config : RouteConfig) (sub : String) : Bool :=
  (if isIpv6Cidr sub then env.v6Enabled config && (parseCidrV6 sub).isSome else (parseCidr sub).isSome) &&
    !env.localSubnets.contains sub && !isDefaultBridgeCidr sub

def wantedFrom (config : RouteConfig) (node : GossipNode) : List Wanted :=
  if env.tombstoned.contains node.hostname then []
  else match env.hostnameToIp node.hostname with
    | none => []
    | some gw => (node.workloadSubnets.filter (env.admits config)).map fun sub => ⟨sub, gw, node.hostname⟩

def wanted (config : RouteConfig) : List Wanted := (env.nodes.getD []).flatMap (env.wantedFrom config)

def kernelOwnsCidrUnmanageable (cidr : String) : Bool :=
  if isIpv6Cidr cidr then false
  else match env.kernelRouteRaw cidr with
    | .ok raw => trim raw ≠ "" && (parseRouteGateway raw).isNone
    | .error _ => false

end Surroundings

def isAsciiAlphanumeric (c : Char) : Bool := ('0' ≤ c && c ≤ '9') || ('a' ≤ c && c ≤ 'z') || ('A' ≤ c && c ≤ 'Z')

/-- The gateway that gossip has for a network: that of the first peer to advertise it. -/
def desiredGateway (wanted : List Wanted) (cidr : String) : Option String :=
  (wanted.find? fun w => w.cidr = cidr).map Wanted.gateway

def refreshRoute (wanted : List Wanted) (route : SubnetRoute) : SubnetRoute :=
  if route.operatorEdited || !"auto-wolfnet-".toList.isPrefixOf route.id.toList then route
  else match desiredGateway wanted route.subnetCidr with
    | some gateway => { route with gateway }
    | none => route

/-- The configuration part of `refresh_managed_route_gateways`. -/
def refreshManagedRouteGateways (wanted : List Wanted) (config : RouteConfig) : RouteConfig :=
  { config with subnetRoutes := config.subnetRoutes.map (refreshRoute wanted) }

def autoRoute (selfNodeId : String) (now : Nat) (w : Wanted) : SubnetRoute where
  id := "auto-wolfnet-" ++ String.ofList (w.peer.toList.filter isAsciiAlphanumeric) ++ "-" ++
    String.ofList (w.cidr.toList.map fun c => if c = '/' ∨ c = '.' then '_' else c) ++ "-" ++ toString now
  subnetCidr := w.cidr
  gateway := w.gateway
  nodeId := some selfNodeId
  enabled := true
  description := "Auto-created by WolfRouter for workload subnet on peer '" ++ w.peer ++
    "'. Detected via cluster gossip; safe to edit or disable manually."
  operatorEdited := false

def SubnetRoute.entry (route : SubnetRoute) : String × String := (route.subnetCidr, route.gateway)

/-- `auto_apply_missing_workload_routes`, as far as the configuration goes. -/
def autoApplyMissingWorkloadRoutes (env : Surroundings) (config : RouteConfig) : RouteConfig :=
  if env.peers.isEmpty then config
  else
    let wanted := env.wanted config
    if wanted.isEmpty then config
    else
      let config := refreshManagedRouteGateways wanted config
      let existing := config.subnetRoutes.map SubnetRoute.entry
      let toAdd := wanted.filter fun w => !routeSetCoversCidr w.cidr existing
      let toAdd := toAdd.filter fun w => !env.kernelOwnsCidrUnmanageable w.cidr
      if toAdd.isEmpty then config
      else
        let subnetRoutes := config.subnetRoutes ++ toAdd.map (autoRoute env.selfNodeId env.now)
        if env.saved then { config with subnetRoutes }
        else
          -- what was added is taken back by its ids
          let addedIds := (subnetRoutes.reverse.take toAdd.length).map SubnetRoute.id
          { config with subnetRoutes := subnetRoutes.filter fun r => !addedIds.contains r.id }

variable {env : Surroundings} {config : RouteConfig} {wanted : List Wanted}

@[simp] theorem refreshRoute_cidr (route : SubnetRoute) : (refreshRoute wanted route).subnetCidr = route.subnetCidr := by
  unfold refreshRoute
  split
  · rfl
  · split <;> rfl

@[simp] theorem refreshRoute_enabled (route : SubnetRoute) : (refreshRoute wanted route).enabled = route.enabled := by
  unfold refreshRoute
  split
  · rfl
  · split <;> rfl

@[simp] theorem refreshRoute_node (route : SubnetRoute) : (refreshRoute wanted route).nodeId = route.nodeId := by
  unfold refreshRoute
  split
  · rfl
  · split <;> rfl

theorem refreshRoute_nothing (route : SubnetRoute) : refreshRoute [] route = route := by
  unfold refreshRoute
  split <;> rfl

theorem refreshRoute_overlap (a b : SubnetRoute) :
    routesCanOverlap (refreshRoute wanted a) (refreshRoute wanted b) = routesCanOverlap a b := by
  simp [routesCanOverlap]

theorem refreshRoute_covers (target : String) (route : SubnetRoute) :
    routeSetCoversCidr target [(refreshRoute wanted route).entry] = routeSetCoversCidr target [route.entry] := by
  unfold SubnetRoute.entry
  rw [refreshRoute_cidr]
  exact covers_gateway target route.subnetCidr _ _

theorem refreshed_covers (target : String) (routes : List SubnetRoute) :
    routeSetCoversCidr target ((routes.map (refreshRoute wanted)).map SubnetRoute.entry) =
      routeSetCoversCidr target (routes.map SubnetRoute.entry) := by
  induction routes with
  | nil => rfl
  | cons route rest ih =>
    simp only [List.map_cons]
    rw [covers_cons, covers_cons target route.entry, refreshRoute_covers, ih]

theorem Surroundings.wanted_formed {w : Wanted} (member : w ∈ env.wanted config) : cidrParses w.cidr = true := by
  obtain ⟨node, -, from_⟩ := List.mem_flatMap.mp member
  unfold wantedFrom at from_
  split at from_
  · cases from_
  · split at from_
    · cases from_
    · obtain ⟨sub, admitted, rfl⟩ := List.mem_map.mp from_
      have may := (List.mem_filter.mp admitted).2
      simp only [admits, Bool.and_eq_true] at may
      unfold cidrParses
      have parses := may.1.1
      split at parses
      · rename_i v6
        rw [if_pos v6]
        exact (Bool.and_eq_true_iff.mp parses).2
      · rename_i v4
        rw [if_neg v4]
        exact parses

theorem Surroundings.wanted_alone (alone : env.peers.isEmpty = true) : env.wanted config = [] := by
  rw [List.isEmpty_iff] at alone
  have nobody : ∀ node ∈ env.nodes.getD [], env.wantedFrom config node = [] := by
    intro node _
    unfold wantedFrom hostnameToIp
    rw [alone]
    split <;> rfl
  exact List.flatMap_eq_nil_iff.mpr nobody

/-- No route of the configuration covers it, and the kernel does not own it. -/
def Surroundings.misses (env : Surroundings) (config : RouteConfig) (cidr : String) : Bool :=
  !routeSetCoversCidr cidr (config.subnetRoutes.map SubnetRoute.entry) && !env.kernelOwnsCidrUnmanageable cidr

def Surroundings.missing (env : Surroundings) (config : RouteConfig) : List Wanted :=
  (env.wanted config).filter fun w => env.misses config w.cidr

theorem Surroundings.missing_eq : ((env.wanted config).filter fun w => !routeSetCoversCidr w.cidr
    ((refreshManagedRouteGateways (env.wanted config) config).subnetRoutes.map SubnetRoute.entry)).filter
      (fun w => !env.kernelOwnsCidrUnmanageable w.cidr) = env.missing config := by
  rw [List.filter_filter, Surroundings.missing]
  apply List.filter_congr
  intro w _
  rw [refreshManagedRouteGateways, refreshed_covers, Surroundings.misses, Bool.and_comm]

theorem autoApply_routes (saved : env.saved = true) : (autoApplyMissingWorkloadRoutes env config).subnetRoutes =
    config.subnetRoutes.map (refreshRoute (env.wanted config)) ++ (env.missing config).map (autoRoute env.selfNodeId env.now) := by
  have unchanged : env.wanted config = [] → config.subnetRoutes =
      config.subnetRoutes.map (refreshRoute (env.wanted config)) ++ (env.missing config).map (autoRoute env.selfNodeId env.now) := by
    intro nothing
    rw [Surroundings.missing, nothing, List.filter_nil, List.map_nil, List.append_nil]
    exact (List.map_id'' refreshRoute_nothing _).symm
  unfold autoApplyMissingWorkloadRoutes
  split
  · rename_i alone
    exact unchanged (Surroundings.wanted_alone alone)
  · dsimp only
    split
    · rename_i nothing
      exact unchanged (List.isEmpty_iff.mp nothing)
    · rw [Surroundings.missing_eq]
      split
      · rename_i none_
        rw [List.isEmpty_iff.mp none_, List.map_nil, List.append_nil]
        rfl
      · rfl

/-! ### Complete and without conflicts -/

/-- Some route that applies to this node covers the network. One that is disabled will do. -/
def Surroundings.Routed (env : Surroundings) (routes : List SubnetRoute) (cidr : String) : Prop :=
  ∃ r ∈ routes, nodeHandlesRoute env.own r env.selfNodeId = true ∧ routeSetCoversCidr cidr [r.entry] = true

def NoNewOverlaps (before after : List SubnetRoute) : Prop :=
  ∀ (i j : Nat) a b, i < j → after[i]? = some a → after[j]? = some b → routesCanOverlap a b = true →
    ∃ a' b', before[i]? = some a' ∧ before[j]? = some b' ∧ routesCanOverlap a' b' = true

structure Surroundings.Settled (env : Surroundings) (config after : RouteConfig) : Prop where
  complete : ∀ w ∈ env.wanted config, env.kernelOwnsCidrUnmanageable w.cidr = false → env.Routed after.subnetRoutes w.cidr
  apart : NoNewOverlaps config.subnetRoutes after.subnetRoutes

structure Surroundings.Suits (env : Surroundings) (config : RouteConfig) : Prop where
  /-- A network that some route covers is covered by one that applies to this node once its
  gateway is refreshed, or by a wider network that is missing. -/
  mine : ∀ w ∈ env.wanted config, env.kernelOwnsCidrUnmanageable w.cidr = false →
    routeSetCoversCidr w.cidr (config.subnetRoutes.map SubnetRoute.entry) = true →
    (∃ r ∈ config.subnetRoutes, routeSetCoversCidr w.cidr [r.entry] = true ∧
      nodeHandlesRoute env.own (refreshRoute (env.wanted config) r) env.selfNodeId = true) ∨
    ∃ d ∈ env.wanted config, env.misses config d.cidr = true ∧ routeSetCoversCidr w.cidr [(d.cidr, d.gateway)] = true
  /-- A network that is advertised more than once is not missing. -/
  once : ∀ cidr, 1 < ((env.wanted config).map Wanted.cidr).count cidr → env.misses config cidr = false

theorem autoRoute_handled (own : List String) (selfNodeId : String) (now : Nat) (w : Wanted) :
    nodeHandlesRoute own (autoRoute selfNodeId now w) selfNodeId = true := by
  have node : (autoRoute selfNodeId now w).nodeId = some selfNodeId := rfl
  simp [nodeHandlesRoute, routeTargetsSelf, node]

theorem autoRoutes_overlap (selfNodeId : String) (now : Nat) (v w : Wanted) :
    routesCanOverlap (autoRoute selfNodeId now v) (autoRoute selfNodeId now w) = true ↔ v.cidr = w.cidr := by
  have enabled : ∀ x, (autoRoute selfNodeId now x).enabled = true := fun _ => rfl
  have cidr : ∀ x, (autoRoute selfNodeId now x).subnetCidr = x.cidr := fun _ => rfl
  have node : ∀ x, (autoRoute selfNodeId now x).nodeId = some selfNodeId := fun _ => rfl
  simp [routesCanOverlap, enabled, cidr, node]

theorem routed_iff (saved : env.saved = true) (cidr : String) :
    env.Routed (autoApplyMissingWorkloadRoutes env config).subnetRoutes cidr ↔
      (∃ r ∈ config.subnetRoutes, routeSetCoversCidr cidr [r.entry] = true ∧
        nodeHandlesRoute env.own (refreshRoute (env.wanted config) r) env.selfNodeId = true) ∨
      ∃ d ∈ env.wanted config, env.misses config d.cidr = true ∧ routeSetCoversCidr cidr [(d.cidr, d.gateway)] = true := by
  unfold Surroundings.Routed
  rw [autoApply_routes saved]
  constructor
  · rintro ⟨r, member, handled, covers⟩
    rcases List.mem_append.mp member with among | planted
    · obtain ⟨old, there, rfl⟩ := List.mem_map.mp among
      rw [refreshRoute_covers] at covers
      exact .inl ⟨old, there, covers, handled⟩
    · obtain ⟨d, missing, rfl⟩ := List.mem_map.mp planted
      obtain ⟨advertised, misses⟩ := List.mem_filter.mp missing
      exact .inr ⟨d, advertised, misses, covers⟩
  · rintro (⟨old, there, covers, handled⟩ | ⟨d, advertised, misses, covers⟩)
    · refine ⟨refreshRoute (env.wanted config) old, List.mem_append_left _ (List.mem_map_of_mem there), handled, ?_⟩
      rw [refreshRoute_covers]
      exact covers
    · have missing : d ∈ env.missing config := List.mem_filter.mpr ⟨advertised, misses⟩
      exact ⟨_, List.mem_append_right _ (List.mem_map_of_mem missing), autoRoute_handled _ _ _ d, covers⟩

theorem complete_iff (saved : env.saved = true) :
    (∀ w ∈ env.wanted config, env.kernelOwnsCidrUnmanageable w.cidr = false →
      env.Routed (autoApplyMissingWorkloadRoutes env config).subnetRoutes w.cidr) ↔
    ∀ w ∈ env.wanted config, env.kernelOwnsCidrUnmanageable w.cidr = false →
      routeSetCoversCidr w.cidr (config.subnetRoutes.map SubnetRoute.entry) = true →
      (∃ r ∈ config.subnetRoutes, routeSetCoversCidr w.cidr [r.entry] = true ∧
        nodeHandlesRoute env.own (refreshRoute (env.wanted config) r) env.selfNodeId = true) ∨
      ∃ d ∈ env.wanted config, env.misses config d.cidr = true ∧ routeSetCoversCidr w.cidr [(d.cidr, d.gateway)] = true := by
  constructor
  · intro complete w member free _
    exact (routed_iff saved w.cidr).mp (complete w member free)
  · intro mine w member free
    apply (routed_iff saved w.cidr).mpr
    by_cases covered : routeSetCoversCidr w.cidr (config.subnetRoutes.map SubnetRoute.entry) = true
    · exact mine w member free covered
    · -- what no route covers is planted, and covers itself
      refine .inr ⟨w, member, ?_, covers_self (Surroundings.wanted_formed member) w.gateway⟩
      rw [Bool.not_eq_true] at covered
      rw [Surroundings.misses, covered, free]
      rfl

theorem count_missing {cidr : String} (misses : env.misses config cidr = true) :
    ((env.missing config).map Wanted.cidr).count cidr = ((env.wanted config).map Wanted.cidr).count cidr := by
  have filtered : (env.missing config).map Wanted.cidr = ((env.wanted config).map Wanted.cidr).filter (env.misses config) := by
    rw [List.filter_map]
    rfl
  rw [filtered, List.count_filter misses]

theorem once_iff : (∀ cidr, 1 < ((env.wanted config).map Wanted.cidr).count cidr → env.misses config cidr = false) ↔
    ((env.missing config).map Wanted.cidr).Nodup := by
  rw [List.nodup_iff_count_le_one]
  constructor
  · intro once cidr
    by_contra many
    rw [Nat.not_le] at many
    have present : cidr ∈ (env.missing config).map Wanted.cidr := List.count_pos_iff.mp (by omega)
    obtain ⟨w, missing, rfl⟩ := List.mem_map.mp present
    have misses := (List.mem_filter.mp missing).2
    rw [count_missing misses] at many
    rw [once _ many] at misses
    cases misses
  · intro few cidr many
    rw [← Bool.not_eq_true]
    intro misses
    have counted := few cidr
    rw [count_missing misses] at counted
    omega

theorem planted_apart {route : SubnetRoute} (there : route ∈ config.subnetRoutes) {d : Wanted} (missing : d ∈ env.missing config) :
    routesCanOverlap (refreshRoute wanted route) (autoRoute env.selfNodeId env.now d) = false := by
  obtain ⟨advertised, misses⟩ := List.mem_filter.mp missing
  rw [← Bool.not_eq_true]
  intro overlap
  have same : route.subnetCidr = d.cidr := by
    unfold routesCanOverlap at overlap
    split at overlap
    · cases overlap
    · split at overlap
      · cases overlap
      · rename_i equal
        rw [refreshRoute_cidr] at equal
        exact not_not.mp equal
  have covers : routeSetCoversCidr d.cidr (config.subnetRoutes.map SubnetRoute.entry) = true := by
    have formed := Surroundings.wanted_formed advertised
    refine (covers_iff formed _).mpr ⟨route.entry, List.mem_map_of_mem there, ?_⟩
    rw [SubnetRoute.entry, same]
    exact covers_self formed route.gateway
  simp only [Surroundings.misses, covers, Bool.not_true, Bool.false_and] at misses
  cases misses

theorem distinct_iff (saved : env.saved = true) :
    NoNewOverlaps config.subnetRoutes (autoApplyMissingWorkloadRoutes env config).subnetRoutes ↔
      ((env.missing config).map Wanted.cidr).Nodup := by
  rw [autoApply_routes saved]
  have count : (config.subnetRoutes.map (refreshRoute (env.wanted config))).length = config.subnetRoutes.length := List.length_map ..
  constructor
  · intro apart
    rw [List.nodup_iff_getElem?_ne_getElem?]
    intro i j before inside same
    rw [List.length_map] at inside
    have first : i < (env.missing config).length := Nat.lt_trans before inside
    rw [List.getElem?_map, List.getElem?_map, List.getElem?_eq_getElem first, List.getElem?_eq_getElem inside] at same
    have planted : ∀ k (bound : k < (env.missing config).length),
        (config.subnetRoutes.map (refreshRoute (env.wanted config)) ++ (env.missing config).map (autoRoute env.selfNodeId env.now))[
          config.subnetRoutes.length + k]? = some (autoRoute env.selfNodeId env.now (env.missing config)[k]) := by
      intro k bound
      rw [List.getElem?_append_right (by omega), count, Nat.add_sub_cancel_left, List.getElem?_map, List.getElem?_eq_getElem bound]
      rfl
    obtain ⟨old, -, there, -, -⟩ := apart _ _ _ _ (Nat.add_lt_add_left before _) (planted i first) (planted j inside)
      ((autoRoutes_overlap _ _ _ _).mpr (Option.some.inj same))
    have bound := (List.getElem?_eq_some_iff.mp there).1
    omega
  · intro once i j a b before left right overlap
    rw [List.getElem?_append] at left right
    split at right
    · rename_i inside
      rw [if_pos (Nat.lt_trans before inside)] at left
      rw [List.getElem?_map] at left right
      obtain ⟨a', there, rfl⟩ := Option.map_eq_some_iff.mp left
      obtain ⟨b', also, rfl⟩ := Option.map_eq_some_iff.mp right
      exact ⟨a', b', there, also, (refreshRoute_overlap a' b').symm.trans overlap⟩
    · rename_i beyond
      rw [List.getElem?_map] at right
      obtain ⟨w, planted, rfl⟩ := Option.map_eq_some_iff.mp right
      split at left
      · rw [List.getElem?_map] at left
        obtain ⟨a', there, rfl⟩ := Option.map_eq_some_iff.mp left
        rw [planted_apart (List.mem_of_getElem? there) (List.mem_of_getElem? planted)] at overlap
        cases overlap
      · rename_i also
        rw [List.getElem?_map] at left
        obtain ⟨v, sown, rfl⟩ := Option.map_eq_some_iff.mp left
        have same := (autoRoutes_overlap _ _ _ _).mp overlap
        rw [List.nodup_iff_getElem?_ne_getElem?] at once
        refine absurd ?_ (once (i - (config.subnetRoutes.map (refreshRoute (env.wanted config))).length)
          (j - (config.subnetRoutes.map (refreshRoute (env.wanted config))).length) (by omega) ?_)
        · rw [List.getElem?_map, List.getElem?_map, sown, planted]
          exact congrArg some same
        · simpa using (List.getElem?_eq_some_iff.mp planted).1

/-- Once what was added is saved, the networks that gossip has are reached from here and no
routes are in each other's way exactly where the configuration was such beforehand. -/
theorem auto_apply_settles_iff (saved : env.saved = true) :
    env.Settled config (autoApplyMissingWorkloadRoutes env config) ↔ env.Suits config := by
  constructor
  · rintro ⟨complete, apart⟩
    exact ⟨(complete_iff saved).mp complete, once_iff.mpr ((distinct_iff saved).mp apart)⟩
  · rintro ⟨mine, once⟩
    exact ⟨(complete_iff saved).mpr mine, (distinct_iff saved).mpr (once_iff.mp once)⟩

/-- A node of two peers, the second of which advertises this and that. -/
def sampleSurroundings (first second : List String) : Surroundings where
  selfNodeId := "node-a"
  peers := [⟨"web", "10.100.10.2/24"⟩, ⟨"db", "10.100.10.3/24"⟩]
  ipv6Available := false
  tombstoned := []
  nodes := some [⟨"web", first⟩, ⟨"db", second⟩]
  localSubnets := ["10.10.0.0/16"]
  kernelRouteRaw _ := .ok ""
  own := ["10.100.10.1"]
  now := 1767225600
  saved := true

def pinnedElsewhere : RouteConfig where
  subnetRoutes := [⟨"route-1", "10.20.0.0/16", "10.100.10.3", some "node-b", true, "", true⟩]
  ipv6SubnetRouting := false

theorem auto_apply_settles_sample : (sampleSurroundings ["10.10.0.0/16", "10.30.0.0/24"] ["172.17.0.0/16"]).Settled pinnedElsewhere
    (autoApplyMissingWorkloadRoutes (sampleSurroundings ["10.10.0.0/16", "10.30.0.0/24"] ["172.17.0.0/16"]) pinnedElsewhere) := by
  apply (auto_apply_settles_iff rfl).mpr
  have wanted : (sampleSurroundings ["10.10.0.0/16", "10.30.0.0/24"] ["172.17.0.0/16"]).wanted pinnedElsewhere =
      [⟨"10.30.0.0/24", "10.100.10.2", "web"⟩] := by decide
  constructor
  · intro w member _ covered
    rw [wanted, List.mem_singleton] at member
    subst member
    exact absurd covered (by decide)
  · intro cidr many
    have few : ["10.30.0.0/24"].count cidr ≤ ["10.30.0.0/24"].length := List.count_le_length
    rw [wanted] at many
    exact absurd many (Nat.not_lt.mpr few)

/-- Two peers advertise one network, and a route for a network is there that another node
has for itself. -/
theorem auto_apply_conflicts_and_misses :
    ¬(sampleSurroundings ["10.30.0.0/24"] ["10.30.0.0/24"]).Settled pinnedElsewhere
      (autoApplyMissingWorkloadRoutes (sampleSurroundings ["10.30.0.0/24"] ["10.30.0.0/24"]) pinnedElsewhere) ∧
    ¬(sampleSurroundings [] ["10.20.0.0/16"]).Settled pinnedElsewhere
      (autoApplyMissingWorkloadRoutes (sampleSurroundings [] ["10.20.0.0/16"]) pinnedElsewhere) := by
  constructor
  · intro settled
    have both := settled.apart 1 2 (autoRoute "node-a" 1767225600 ⟨"10.30.0.0/24", "10.100.10.2", "web"⟩)
      (autoRoute "node-a" 1767225600 ⟨"10.30.0.0/24", "10.100.10.3", "db"⟩) (by decide) (by decide) (by decide)
      (by decide)
    obtain ⟨a, b, there, -, -⟩ := both
    cases there
  · intro settled
    obtain ⟨r, member, handled, -⟩ := settled.complete ⟨"10.20.0.0/16", "10.100.10.3", "db"⟩ (by decide) (by decide)
    have only : (autoApplyMissingWorkloadRoutes (sampleSurroundings [] ["10.20.0.0/16"]) pinnedElsewhere).subnetRoutes =
        pinnedElsewhere.subnetRoutes := by decide
    rw [only] at member
    obtain rfl := List.mem_singleton.mp member
    exact absurd handled (by decide)

end Router
