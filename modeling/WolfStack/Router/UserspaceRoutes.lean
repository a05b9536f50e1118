import WolfStack.Router.RouteReplication

/-! The table of networks and gateways that is written for the daemon of WolfNet. It is made from
the routes of all nodes, where the kernel has those of this node only. -/

namespace Router
open Auth

/-- `BTreeMap<String, String>`, from networks to gateways. -/
abbrev CidrMap := String → Option String

/-- What a later route says of a network takes the place of what an earlier one has. -/
def collectRoutes (routes : List SubnetRoute) : CidrMap :=
  routes.foldl (fun map r => Function.update map r.subnetCidr (some r.gateway)) fun _ => none

/-- A network that a route is configured for is left to it. -/
def mergeLocalOwnerEntries (map : CidrMap) (localSubnets : List String) (localWnIp : String) (v6Allowed : Bool) : CidrMap :=
  localSubnets.foldl (fun map sub =>
    if isIpv6Cidr sub && !v6Allowed then map
    else if isDefaultBridgeCidr sub then map
    else if (map sub).isSome then map
    else Function.update map sub (some localWnIp)) map

/-- The address of this node in WolfNet, where it has one, and the networks of its own workloads. -/
structure LocalSubnets where
  localWnIp : Option String
  subnets : List String

/-- `sync_subnet_routes_to_wolfnet`, as far as the table it writes. -/
def subnetRoutesTable (routes : List SubnetRoute) (v6Routing : Bool) (locals : LocalSubnets) : CidrMap :=
  let hasV6 := routes.any fun r => r.enabled && isIpv6Cidr r.subnetCidr
  let allowV6 := !hasV6 || v6Routing
  let map := collectRoutes ((routes.filter SubnetRoute.enabled).filter fun r => allowV6 || !isIpv6Cidr r.subnetCidr)
  match locals.localWnIp with
  | some localWnIp => mergeLocalOwnerEntries map locals.subnets localWnIp (locals.subnets.any isIpv6Cidr && v6Routing)
  | none => map

variable {D : Type} [DecidableEq D] {node : RouteNode D} {config : RouteConfig}

def RouteNode.Installs (node : RouteNode D) (config : RouteConfig) (r : SubnetRoute) : Prop :=
  r ∈ node.here config ∧
    ((node.role config.ipv6SubnetRouting r = some .via ∧ (applyAll node config (node.destination r.subnetCidr)).via = some r.gateway) ∨
      (node.role config.ipv6SubnetRouting r = some .device ∧ (applyAll node config (node.destination r.subnetCidr)).device = true))

def RouteNode.Agrees (node : RouteNode D) (config : RouteConfig) (map : CidrMap) : Prop :=
  ∀ r, node.Installs config r → map r.subnetCidr = some r.gateway

def lastFor (cidr : String) (routes : List SubnetRoute) : Option SubnetRoute :=
  (routes.filter fun r => r.enabled && r.subnetCidr = cidr).getLast?

theorem collectRoutes_eq (cidr : String) (routes : List SubnetRoute) :
    collectRoutes routes cidr = ((routes.filter fun r => r.subnetCidr = cidr).getLast?).map SubnetRoute.gateway := by
  induction routes using List.reverseRecOn with
  | nil => rfl
  | append_singleton routes last ih =>
    have stepped : collectRoutes (routes ++ [last]) = Function.update (collectRoutes routes) last.subnetCidr (some last.gateway) := by
      rw [collectRoutes, List.foldl_append]
      rfl
    rw [stepped, List.filter_append]
    by_cases here : last.subnetCidr = cidr
    · subst here
      simp
    · rw [Function.update_of_ne (Ne.symm here), ih]
      simp [here]

theorem mergeLocalOwnerEntries_keeps {map : CidrMap} {cidr gateway : String} (there : map cidr = some gateway) (subs : List String)
    (localWnIp : String) (v6Allowed : Bool) : mergeLocalOwnerEntries map subs localWnIp v6Allowed cidr = some gateway := by
  induction subs generalizing map with
  | nil => exact there
  | cons sub rest ih =>
    rw [mergeLocalOwnerEntries, List.foldl_cons, ← mergeLocalOwnerEntries]
    apply ih
    split
    · exact there
    · split
      · exact there
      · split
        · exact there
        next free =>
          have other : cidr ≠ sub := by
            rintro rfl
            exact free (by rw [there]; rfl)
          rw [Function.update_of_ne other, there]

theorem subnetRoutesTable_eq {routes : List SubnetRoute} {v6Routing : Bool} {cidr : String} {last : SubnetRoute} (locals : LocalSubnets)
    (named : lastFor cidr routes = some last) (allowed : isIpv6Cidr cidr = true → v6Routing = true) :
    subnetRoutesTable routes v6Routing locals cidr = some last.gateway := by
  have collected : collectRoutes ((routes.filter SubnetRoute.enabled).filter fun r =>
      (!(routes.any fun r => r.enabled && isIpv6Cidr r.subnetCidr) || v6Routing) || !isIpv6Cidr r.subnetCidr) cidr = some last.gateway := by
    have same : (((routes.filter SubnetRoute.enabled).filter fun r =>
        (!(routes.any fun r => r.enabled && isIpv6Cidr r.subnetCidr) || v6Routing) || !isIpv6Cidr r.subnetCidr).filter fun r => r.subnetCidr = cidr) =
        routes.filter fun r => r.enabled && r.subnetCidr = cidr := by
      rw [List.filter_filter, List.filter_filter]
      refine List.filter_congr fun r _ => ?_
      by_cases here : r.subnetCidr = cidr
      · subst here
        cases v6 : isIpv6Cidr r.subnetCidr with
        | false => simp
        | true => simp [allowed v6]
      · simp [here]
    rw [collectRoutes_eq, same]
    exact congrArg (Option.map SubnetRoute.gateway) named
  unfold subnetRoutesTable
  cases locals.localWnIp with
  | none => exact collected
  | some localWnIp => exact mergeLocalOwnerEntries_keeps collected _ _ _

theorem Installs.v6 {r : SubnetRoute} (installs : node.Installs config r) (v6 : isIpv6Cidr r.subnetCidr = true) : config.ipv6SubnetRouting = true := by
  obtain ⟨-, role⟩ := installs
  by_contra off
  have none_ : node.role config.ipv6SubnetRouting r = none := by
    rw [RouteNode.role, Bool.eq_false_iff.mpr off]
    split
    · exact if_pos (by simp [SubnetRoute.isV6, v6])
    · rfl
  rw [none_] at role
  rcases role with ⟨impossible, -⟩ | ⟨impossible, -⟩ <;> cases impossible

theorem lastFor_split {cidr : String} {before after : List SubnetRoute} {r : SubnetRoute} (enabled : r.enabled = true) (here : r.subnetCidr = cidr) :
    lastFor cidr (before ++ r :: after) = some ((lastFor cidr after).getD r) := by
  rw [lastFor, List.filter_append, List.filter_cons_of_pos (by simp [enabled, here]), List.getLast?_append]
  rw [List.getLast?_cons]
  rfl

/-- The table has the gateways of the kernel exactly where, for each route that this node uses, the
last of the routes in force for its network that are listed after it has its gateway. -/
theorem table_agrees_iff (node : RouteNode D) (config : RouteConfig) (locals : LocalSubnets) :
    node.Agrees config (subnetRoutesTable config.subnetRoutes config.ipv6SubnetRouting locals) ↔
      ∀ before r after, config.subnetRoutes = before ++ r :: after → node.Installs config r →
        ∀ last, lastFor r.subnetCidr after = some last → last.gateway = r.gateway := by
  have shown {before after : List SubnetRoute} {r : SubnetRoute} (split : config.subnetRoutes = before ++ r :: after)
      (installs : node.Installs config r) : subnetRoutesTable config.subnetRoutes config.ipv6SubnetRouting locals r.subnetCidr =
        some ((lastFor r.subnetCidr after).getD r).gateway := by
    have enabled : r.enabled = true := (Bool.and_eq_true_iff.mp (List.mem_filter.mp installs.1).2).1
    exact subnetRoutesTable_eq locals (split ▸ lastFor_split enabled rfl) (Installs.v6 installs)
  constructor
  · intro agrees before r after split installs last named
    have table := shown split installs
    rw [agrees r installs, named] at table
    exact (Option.some.inj table).symm
  · intro lasts r installs
    obtain ⟨before, after, split⟩ := List.append_of_mem (List.mem_filter.mp installs.1).1
    rw [shown split installs]
    cases named : lastFor r.subnetCidr after with
    | none => rfl
    | some last => exact congrArg some (lasts before r after split installs last named)

def twoWays : RouteConfig where
  subnetRoutes := [⟨"route-1", "10.20.0.0/16", "10.100.10.3", some "node-a", true, "", true⟩,
    ⟨"route-2", "10.20.0.0/16", "10.100.10.4", some "node-b", true, "", true⟩]
  ipv6SubnetRouting := false

/-- The routes do not overlap, and this node has the gateway of the other one in its table. -/
theorem table_misleads : twoWays.subnetRoutes.Pairwise (fun a b => routesCanOverlap a b = false) ∧
    ¬consumer.Agrees twoWays (subnetRoutesTable twoWays.subnetRoutes false ⟨some "10.100.10.2", ["172.21.0.0/24"]⟩) := by
  refine ⟨by decide +kernel, fun agrees => ?_⟩
  have installs : consumer.Installs twoWays ⟨"route-1", "10.20.0.0/16", "10.100.10.3", some "node-a", true, "", true⟩ :=
    ⟨by decide +kernel, .inl ⟨by decide +kernel, by decide +kernel⟩⟩
  exact absurd (agrees _ installs) (by decide +kernel)

end Router
