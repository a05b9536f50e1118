import WolfStack.Router.ConfigFile
import WolfStack.Router.UserspaceRoutes

/-! The tick that brings subnet routes back once a minute. A route is passed over unless its gateway
is a peer, and a node is never its own peer. -/

namespace Router
open Auth

def Peer.address (p : Peer) : String := String.ofList (p.ip.toList.takeWhile (· ≠ '/'))

/-- A node in WolfNet. `add_wolfnet_peer` refuses the own address of the node. -/
structure WolfNetNode (D : Type) extends RouteNode D where
  peers : List Peer
  apart : ∀ p ∈ peers, p.address ∉ own
  kernelOwnsCidrUnmanageable : String → Bool
  locals : LocalSubnets

variable {D : Type}

def WolfNetNode.currentWnGateways (node : WolfNetNode D) : List String := (node.peers.map Peer.address).filter (· ≠ "")

namespace SubnetRoute

def isAuto (r : SubnetRoute) : Bool := "auto-wolfnet-".toList.isPrefixOf r.id.toList

def shadowedByOperator (routes : List SubnetRoute) (r : SubnetRoute) : Bool :=
  routes.any fun other => other.id ≠ r.id && other.enabled && !other.isAuto && other.subnetCidr = r.subnetCidr &&
    (other.nodeId.isNone || r.nodeId.isNone || other.nodeId = r.nodeId)

end SubnetRoute

def duplicateRoutes (routes : List SubnetRoute) : List SubnetRoute :=
  (routes.filter fun r => r.enabled && r.isAuto).filter (SubnetRoute.shadowedByOperator routes)

/-- The gateway that a duplicate has in the kernel, the last one counting. -/
def supersededGateway (duplicates : List SubnetRoute) (cidr : String) : Option String :=
  ((duplicates.filter fun r => r.subnetCidr = cidr).getLast?).map SubnetRoute.gateway

def orphanWarning (r : SubnetRoute) : String :=
  "WolfRouter watchdog: subnet route " ++ r.subnetCidr ++ " via " ++ r.gateway ++ " skipped — gateway is not a current wolfnet peer " ++
    "(orphan route; delete via UI or `wolfnet_tombstone_add` the peer to clean up)"

def ownedWarning (r : SubnetRoute) : String :=
  "WolfRouter watchdog: subnet route " ++ r.subnetCidr ++ " via " ++ r.gateway ++ " skipped — the local kernel already owns " ++
    r.subnetCidr ++ " as a connected/dev route (e.g. docker0/lxcbr0); WolfNet cannot route over a locally-owned subnet. " ++
    "Remove the local route or renumber the subnet if you intended to reach it over WolfNet."

def failedWarning (r : SubnetRoute) (e : String) : String :=
  "WolfRouter watchdog: subnet route reconcile failed: " ++ r.subnetCidr ++ " via " ++ r.gateway ++ ": " ++ e

/-- What a tick has done so far. `warned` has the last warning about each network. -/
structure Tick (D : Type) where
  kernel : Kernel D
  warned : String → Option String
  orphans : List SubnetRoute
  autoDisableIds : List String

variable [DecidableEq D]

namespace Tick
variable (tick : Tick D)

def warn (cidr message : String) : Tick D := { tick with warned := Function.update tick.warned cidr (some message) }

def clearWarn (cidr : String) : Tick D := { tick with warned := Function.update tick.warned cidr none }

def apply (node : WolfNetNode D) (v6Routing : Bool) (superseded : Option String) (r : SubnetRoute) : Tick D :=
  let destination := node.destination r.subnetCidr
  match applySubnetRoute node.toRouteNode v6Routing r superseded (tick.kernel destination) with
  | (.ok (), slot) => { tick with kernel := Function.update tick.kernel destination slot }.clearWarn r.subnetCidr
  | (.error e, slot) => { tick with kernel := Function.update tick.kernel destination slot }.warn r.subnetCidr (failedWarning r e)

def visit (node : WolfNetNode D) (v6Routing : Bool) (duplicates : List SubnetRoute) (r : SubnetRoute) : Tick D :=
  if r.gateway ∉ node.currentWnGateways then { tick with orphans := tick.orphans ++ [r] }.warn r.subnetCidr (orphanWarning r)
  else if !nodeIsRouteGateway node.own r && node.kernelOwnsCidrUnmanageable r.subnetCidr then
    if r.isAuto then { tick with autoDisableIds := r.id :: tick.autoDisableIds }
    else tick.warn r.subnetCidr (ownedWarning r)
  else tick.apply node v6Routing (supersededGateway duplicates r.subnetCidr) r

end Tick

def autoDisableReason (autoDisableIds duplicateDisableIds : List String) (id : String) : Option String :=
  if id ∈ autoDisableIds then some "subnet owned by a local kernel route — never installable over WolfNet"
  else if id ∈ duplicateDisableIds then some "duplicate of an operator-owned route for the same subnet, which takes precedence"
  else none

def autoDisable (autoDisableIds duplicateDisableIds : List String) (r : SubnetRoute) : SubnetRoute :=
  match autoDisableReason autoDisableIds duplicateDisableIds r.id with
  | none => r
  | some reason =>
    if !r.enabled then r
    else
      { r with
        enabled := false
        description := if mentions r.description "auto-disabled" then r.description else r.description ++ " (auto-disabled: " ++ reason ++ ")" }

/-- What a tick leaves: the kernel and the warnings, the configuration, and the table for WolfNet. -/
structure Reconciled (D : Type) where
  tick : Tick D
  config : RouteConfig
  table : CidrMap

def reconcileSubnetRoutes (node : WolfNetNode D) (config : RouteConfig) (kernel : Kernel D) (warned : String → Option String) : Reconciled D :=
  let duplicates := duplicateRoutes config.subnetRoutes
  let duplicateDisableIds := duplicates.map SubnetRoute.id
  let here := (node.toRouteNode.here config).filter fun r => r.id ∉ duplicateDisableIds
  let tick := here.foldl (fun tick r => tick.visit node config.ipv6SubnetRouting duplicates r) ⟨kernel, warned, [], []⟩
  let routes := config.subnetRoutes.map (autoDisable tick.autoDisableIds duplicateDisableIds)
  let disabled := config.subnetRoutes.filter fun r => r.enabled && (autoDisableReason tick.autoDisableIds duplicateDisableIds r.id).isSome
  { tick := disabled.foldl (fun tick r => tick.clearWarn r.subnetCidr) tick
    config := { config with subnetRoutes := routes }
    table := subnetRoutesTable routes config.ipv6SubnetRouting node.locals }

/-- Whatever was there before, the rules of each network that this node is the gateway of are there
afterwards, and only routes with a gateway that is neither this node nor a peer are passed over. -/
structure Heals (node : WolfNetNode D) (config : RouteConfig) : Prop where
  rules : ∀ kernel warned, ∀ r ∈ config.subnetRoutes, r.enabled = true → r.gateway ∈ node.own → ∀ kind,
    ((reconcileSubnetRoutes node config kernel warned).tick.kernel (node.destination r.subnetCidr)).rules r.isV6 kind = true
  orphans : ∀ kernel warned, ∀ r ∈ (reconcileSubnetRoutes node config kernel warned).tick.orphans,
    r.gateway ∉ node.own ∧ ∀ p ∈ node.peers, p.address ≠ "" → p.address ≠ r.gateway

variable {node : WolfNetNode D} {config : RouteConfig} {tick : Tick D} {v6Routing : Bool} {duplicates : List SubnetRoute} {r : SubnetRoute}

omit [DecidableEq D] in
theorem gateway_of_peer (known : r.gateway ∈ node.currentWnGateways) : ∃ p ∈ node.peers, p.address = r.gateway :=
  List.mem_map.mp (List.mem_filter.mp known).1

omit [DecidableEq D] in
theorem peer_gateway {p : Peer} (member : p ∈ node.peers) (nonempty : p.address ≠ "") : p.address ∈ node.currentWnGateways :=
  List.mem_filter.mpr ⟨List.mem_map_of_mem member, decide_eq_true nonempty⟩

omit [DecidableEq D] in
theorem consumer_rules {prev : Option String} {slot : Slot} (consumes : r.gateway ∉ node.own) :
    (applySubnetRoute node.toRouteNode v6Routing r prev slot).2.rules = slot.rules := by
  rw [apply_spec.1]
  cases role : node.toRouteNode.role v6Routing r with
  | none => rfl
  | some role_ =>
    cases role_ with
    | via => rfl
    | device => rfl
    | forwards =>
      have other : nodeIsRouteGateway node.own r = false := by simpa [nodeIsRouteGateway] using consumes
      unfold RouteNode.role RouteNode.place at role
      rw [other, if_neg Bool.false_ne_true] at role
      split at role
      · split at role
        · cases role
        · split at role <;> cases role
      · cases role

theorem visit_rules (d : D) : ((tick.visit node v6Routing duplicates r).kernel d).rules = (tick.kernel d).rules := by
  unfold Tick.visit
  split
  · rfl
  next known =>
    obtain ⟨p, member, same⟩ := gateway_of_peer (not_not.mp known)
    have consumes : r.gateway ∉ node.own := same ▸ node.apart p member
    split
    · split <;> rfl
    · have kept : ∀ slot, slot.rules = (tick.kernel (node.destination r.subnetCidr)).rules →
          ((Function.update tick.kernel (node.destination r.subnetCidr) slot) d).rules = (tick.kernel d).rules := by
        intro slot same
        by_cases here : d = node.destination r.subnetCidr
        · subst here
          rw [Function.update_self, same]
        · rw [Function.update_of_ne here]
      unfold Tick.apply
      dsimp only
      have left := @consumer_rules D node v6Routing r (supersededGateway duplicates r.subnetCidr) (tick.kernel (node.destination r.subnetCidr)) consumes
      split <;> rename_i applied
      · exact kept _ (by rw [← left, applied])
      · exact kept _ (by rw [← left, applied])

theorem visit_orphans : (tick.visit node v6Routing duplicates r).orphans =
    if r.gateway ∉ node.currentWnGateways then tick.orphans ++ [r] else tick.orphans := by
  unfold Tick.visit
  split
  · rfl
  · split
    · split <;> rfl
    · unfold Tick.apply
      dsimp only
      split <;> rfl

theorem visits_rules (routes : List SubnetRoute) (d : D) :
    ((routes.foldl (fun tick r => tick.visit node v6Routing duplicates r) tick).kernel d).rules = (tick.kernel d).rules := by
  induction routes generalizing tick with
  | nil => rfl
  | cons r rest ih => rw [List.foldl_cons, ih, visit_rules]

theorem visits_orphans (routes : List SubnetRoute) : (routes.foldl (fun tick r => tick.visit node v6Routing duplicates r) tick).orphans =
    tick.orphans ++ routes.filter fun r => r.gateway ∉ node.currentWnGateways := by
  induction routes generalizing tick with
  | nil => exact (List.append_nil _).symm
  | cons r rest ih =>
    rw [List.foldl_cons, ih, visit_orphans]
    by_cases known : r.gateway ∈ node.currentWnGateways <;> simp [known]

omit [DecidableEq D] in
theorem clearWarns_tick (routes : List SubnetRoute) :
    (routes.foldl (fun tick r => tick.clearWarn r.subnetCidr) tick).kernel = tick.kernel ∧
      (routes.foldl (fun tick r => tick.clearWarn r.subnetCidr) tick).orphans = tick.orphans := by
  induction routes generalizing tick with
  | nil => exact ⟨rfl, rfl⟩
  | cons r rest ih => exact ih

theorem reconcile_rules (kernel : Kernel D) (warned : String → Option String) (d : D) :
    ((reconcileSubnetRoutes node config kernel warned).tick.kernel d).rules = (kernel d).rules := by
  unfold reconcileSubnetRoutes
  dsimp only
  rw [(clearWarns_tick _).1]
  exact visits_rules _ d

theorem mem_reconcile_orphans {kernel : Kernel D} {warned : String → Option String}
    (passed : r ∈ (reconcileSubnetRoutes node config kernel warned).tick.orphans) :
    r ∈ config.subnetRoutes ∧ r.enabled = true ∧ r.gateway ∉ node.currentWnGateways := by
  unfold reconcileSubnetRoutes at passed
  dsimp only at passed
  rw [(clearWarns_tick _).2, visits_orphans, List.nil_append] at passed
  obtain ⟨visited, orphan⟩ := List.mem_filter.mp passed
  obtain ⟨listed, part⟩ := List.mem_filter.mp (List.mem_filter.mp visited).1
  exact ⟨listed, (Bool.and_eq_true_iff.mp part).1, by simpa using orphan⟩

/-- A tick heals exactly where there is nothing to heal: no route in force has this node for its
gateway. -/
theorem reconcile_heals_iff (node : WolfNetNode D) (config : RouteConfig) :
    Heals node config ↔ ∀ r ∈ config.subnetRoutes, r.enabled = true → r.gateway ∉ node.own := by
  constructor
  · intro heals r listed enabled own
    have there := heals.rules (fun _ => .empty) (fun _ => none) r listed enabled own .masquerade
    rw [reconcile_rules] at there
    cases there
  · intro consumes
    constructor
    · intro _ _ r listed enabled own
      exact absurd own (consumes r listed enabled)
    · intro kernel warned r passed
      obtain ⟨listed, enabled, orphan⟩ := mem_reconcile_orphans passed
      refine ⟨consumes r listed enabled, fun p member nonempty same => orphan ?_⟩
      exact same ▸ peer_gateway member nonempty

def gatewayNode : WolfNetNode String where
  toRouteNode := consumer
  peers := [⟨"node-b", "10.100.10.3/32"⟩]
  apart := by decide +kernel
  kernelOwnsCidrUnmanageable _ := false
  locals := ⟨some "10.100.10.2", []⟩

/-- It is the gateway of the one route there is. -/
theorem gateway_unhealed : ¬Heals gatewayNode (behind "10.100.10.2") := by
  intro heals
  have there := heals.rules (fun _ => .empty) (fun _ => none) ⟨"route-1", "10.20.0.0/16", "10.100.10.2", none, true, "", true⟩
    (List.mem_singleton.mpr rfl) rfl (by decide) .masquerade
  rw [reconcile_rules] at there
  cases there

end Router
