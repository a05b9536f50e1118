import WolfStack.Networking.ProtectedPorts
import WolfStack.Router.Firewall
import WolfStack.Router.KernelRoutes

/-! Edits of the router and of mappings that fail. Memory is changed before the file is written, the
file before the rules are put in force, and of all this only added routes are taken back. -/

namespace Router
open Auth Networking

/-- The part of the configuration that these edits are about. -/
structure RouterConfig where
  firewall : FirewallConfig
  routes : RouteConfig

/-- Items must belong to a node of the cluster that is being looked at, if one is. -/
def clusterGuardNodeId (cluster : Option (List String)) (nodeId : Option String) : Except String Unit :=
  match cluster with
  | none => .ok ()
  | some set => match nodeId with
    | none => .error "this WolfRouter view is cluster-scoped — items must be pinned to a node in this cluster (cluster-agnostic / global items aren't allowed)"
    | some nid =>
      if nid ∈ set then .ok () else .error ("node '" ++ nid ++ "' is not in this cluster — cross-cluster operations are blocked")

def clusterGuardExistingRule (cluster : Option (List String)) (rules : List FirewallRule) (id : String) : Except String Unit :=
  clusterGuardNodeId cluster ((rules.find? fun r => r.id = id).bind FirewallRule.nodeId)

section
variable (cluster : Option (List String)) (rules : List FirewallRule)

/-- What becomes of the rules if the request is let through. A rule without an id gets a new one. -/
def createRule (newId : String) (rule : FirewallRule) : Except String (List FirewallRule) := do
  clusterGuardNodeId cluster rule.nodeId
  let rule := if rule.id = "" then { rule with id := newId } else rule
  let nextOrder := (((rules.map FirewallRule.order).max?).getD (-1) + 1).bmod 4294967296
  let rule := if rule.order = 0 then { rule with order := nextOrder } else rule
  return rules.filter (fun r => r.id ≠ rule.id) ++ [rule]

def updateRule (id : String) (updated : FirewallRule) : Except String (List FirewallRule) :=
  if updated.id ≠ id then .error "id mismatch"
  else do
    clusterGuardExistingRule cluster rules id
    clusterGuardNodeId cluster updated.nodeId
    if rules.any fun r => r.id = id then return rules.set (rules.findIdx fun r => r.id = id) updated
    else .error "not found"

def deleteRule (id : String) : Except String (List FirewallRule) := do
  clusterGuardExistingRule cluster rules id
  return rules.filter fun r => r.id ≠ id

/-- Of an id that is given twice the last place counts. -/
def reorderRules (order : List String) : Except String (List FirewallRule) :=
  .ok (rules.map fun r => match (order.zipIdx.filter fun entry => entry.1 = r.id).getLast? with
    | some entry => { r with order := entry.2 }
    | none => r)

end

@[ext] structure World (D : Type) where
  memory : RouterConfig
  file : RouterConfig
  filter : Filter
  kernel : Kernel D
  mappings : List IpMapping
  tables : Tables

inductive Reply where
  | ok
  | error (message : String)
  | died
deriving DecidableEq, Repr

inductive RuleCall where
  | create (newId : String) (rule : FirewallRule)
  | update (id : String) (updated : FirewallRule)
  | delete (id : String)
  | reorder (order : List String)

namespace RuleCall

def change (cluster : Option (List String)) (rules : List FirewallRule) : RuleCall → Except String (List FirewallRule)
  | create newId rule => createRule cluster rules newId rule
  | update id updated => updateRule cluster rules id updated
  | delete id => deleteRule cluster rules id
  | reorder order => reorderRules rules order

/-- Only a new rule that cannot be put in force is an error. -/
def reports : RuleCall → Bool
  | create .. => true
  | update .. | delete _ | reorder _ => false

end RuleCall

structure Met where
  cluster : Option (List String)
  saved : Except String Unit
  node : FirewallNode
  iptables : Iptables

variable {D : Type}

def RouterConfig.withRules (config : RouterConfig) (rules : List FirewallRule) : RouterConfig :=
  { config with firewall := { config.firewall with rules } }

/-- Whether the rule set is in force then is said by one of the handlers only. -/
def World.putInForce (world : World D) (iptables : Iptables) (reports : Bool) (ruleset : List (List Char)) : Reply × World D :=
  match applyRuleset iptables ruleset world.filter with
  | (.error e, filter) => (if reports then .error ("firewall apply failed: " ++ e) else .ok, { world with filter })
  | (.ok (), filter) => (.ok, { world with filter })

/-- The change is made in memory, saved, and put in force if that is to happen at once. -/
def World.commit (world : World D) (met : Met) (reports : Bool) (rules : List FirewallRule) : Reply × World D :=
  let config := world.memory.withRules rules
  match met.saved with
  | .error e => (.error e, { world with memory := config })
  | .ok () =>
    let world := { world with memory := config, file := config }
    if !config.firewall.autoApply then (.ok, world)
    else match buildRuleset met.node config.firewall with
      | none => (.died, world)
      | some ruleset => world.putInForce met.iptables reports ruleset

def World.editRules (world : World D) (met : Met) (call : RuleCall) : Reply × World D :=
  match call.change met.cluster world.memory.firewall.rules with
  | .error message => (.error message, world)
  | .ok rules => world.commit met call.reports rules

def World.addRoutes (world : World D) (routes : List SubnetRoute) : World D :=
  { world with memory := { world.memory with routes := { world.memory.routes with subnetRoutes := world.memory.routes.subnetRoutes ++ routes } } }

/-- What `auto_apply_missing_workload_routes` meets: whether each of its saves is done, and the routes
that others add while it runs. -/
structure AutoMet (D : Type) where
  env : Surroundings
  node : RouteNode D
  refreshSaved : Except String Unit
  added : Except String Unit
  meanwhile : List SubnetRoute

variable [DecidableEq D]

/-- A route whose gateway has been refreshed is put in force in the place of the old one. -/
def swapKernel (node : RouteNode D) (v6Routing : Bool) (kernel : Kernel D) (swap : SubnetRoute × SubnetRoute) : Kernel D :=
  if swap.2.enabled && nodeHandlesRoute node.own swap.2 node.selfNodeId then
    let destination := node.destination swap.2.subnetCidr
    Function.update kernel destination (applySubnetRoute node v6Routing swap.2 (some swap.1.gateway) (kernel destination)).2
  else kernel

/-- `refresh_managed_route_gateways`. -/
def World.refresh (world : World D) (met : AutoMet D) (wanted : List Wanted) : Reply × World D :=
  let old := world.memory.routes
  let new := refreshManagedRouteGateways wanted old
  let swaps := (old.subnetRoutes.zip new.subnetRoutes).filter fun swap => swap.1.gateway ≠ swap.2.gateway
  if swaps.isEmpty then (.ok, world)
  else
    let memory := { world.memory with routes := new }
    let (reply, file) := match met.refreshSaved with
      | .ok () => (Reply.ok, memory)
      | .error e => (Reply.error e, world.file)
    (reply, { world with memory, file, kernel := swaps.foldl (swapKernel met.node file.routes.ipv6SubnetRouting) world.kernel })

/-- The routes that were added last are taken back, as many as this call has added. -/
def rollBack (count : Nat) (routes : List SubnetRoute) : List SubnetRoute :=
  let addedIds := (routes.reverse.take count).map SubnetRoute.id
  routes.filter fun r => !addedIds.contains r.id

/-- `auto_apply_missing_workload_routes`. Its outcome is that of its last save. -/
def World.autoApply (world : World D) (met : AutoMet D) : Reply × World D :=
  let wanted := met.env.wanted world.memory.routes
  if met.env.peers.isEmpty || wanted.isEmpty then (.ok, world.addRoutes met.meanwhile)
  else
    let (refreshed, world) := world.refresh met wanted
    let existing := world.memory.routes.subnetRoutes.map SubnetRoute.entry
    let toAdd := (wanted.filter fun w => !routeSetCoversCidr w.cidr existing).filter fun w => !met.env.kernelOwnsCidrUnmanageable w.cidr
    if toAdd.isEmpty then (refreshed, world.addRoutes met.meanwhile)
    else
      let copy := (world.addRoutes (toAdd.map (autoRoute met.env.selfNodeId met.env.now))).memory
      let world := (world.addRoutes (toAdd.map (autoRoute met.env.selfNodeId met.env.now))).addRoutes met.meanwhile
      match met.added with
      | .ok () => (.ok, { world with file := copy })
      | .error e => (.error e, { world with memory := { world.memory with
          routes := { world.memory.routes with subnetRoutes := rollBack toAdd.length world.memory.routes.subnetRoutes } } })

/-- What `update_ip_mapping` meets, with what is said of a file that cannot be written. -/
structure MappingMet where
  host : Networking.Host
  saving : Saving
  writeError : String

def World.updateMapping (world : World D) (met : MappingMet) (id : String) (e : Networking.Edit) : Reply × World D :=
  let (updated, tables) := met.host.updateIpMapping world.mappings id e world.tables
  match updated with
  | .error message => (.error message, { world with tables })
  | .ok m => match met.saving with
    | .written => (.ok, { world with tables, mappings := world.mappings.set (world.mappings.findIdx fun m => m.id = id) m })
    | .untouched => (.error met.writeError, { world with tables })
    | .torn => (.error met.writeError, { world with tables, mappings := [] })

inductive EditCall (D : Type) where
  | rules (met : Met) (call : RuleCall)
  | autoApply (met : AutoMet D)
  | mapping (met : MappingMet) (id : String) (e : Networking.Edit)

def World.serve (world : World D) : EditCall D → Reply × World D
  | .rules met call => world.editRules met call
  | .autoApply met => world.autoApply met
  | .mapping met id e => world.updateMapping met id e

def EditCall.others : EditCall D → List SubnetRoute
  | .rules .. | .mapping .. => []
  | .autoApply met => met.meanwhile

/-- If the call fails, it leaves everything as it was, but for what others have added. -/
def World.Undone (world : World D) (call : EditCall D) : Prop :=
  (world.serve call).1 ≠ .ok → (world.serve call).2 = world.addRoutes call.others

inductive Failure where
  | save
  | build
  | test
  | swap
deriving DecidableEq, Repr

def World.failure (world : World D) (met : Met) (reports : Bool) (rules : List FirewallRule) : Option Failure :=
  match met.saved with
  | .error _ => some .save
  | .ok () =>
    if !world.memory.firewall.autoApply then none
    else match buildRuleset met.node (world.memory.withRules rules).firewall with
      | none => some .build
      | some ruleset =>
        if !reports then none
        else match met.iptables.restore ruleset true, met.iptables.restore ruleset false with
          | .done, .done => none
          | .done, _ => some .swap
          | _, _ => some .test

def World.Spares (world : World D) (rules : List FirewallRule) : Option Failure → Prop
  | none => True
  | some .save => rules = world.memory.firewall.rules
  | some .build | some .test => rules = world.memory.firewall.rules ∧ world.memory = world.file
  | some .swap => rules = world.memory.firewall.rules ∧ world.memory = world.file ∧ ∀ chain ∈ ourChains, world.filter chain = []

def AutoMet.Spares (met : AutoMet D) (routes : RouteConfig) : Prop :=
  let wanted := met.env.wanted routes
  met.env.peers = [] ∨ wanted = [] ∨
    if met.env.missing routes = [] then met.refreshSaved = .ok () ∨ refreshManagedRouteGateways wanted routes = routes
    else met.added = .ok () ∨ (refreshManagedRouteGateways wanted routes = routes ∧ met.meanwhile = [] ∧
      ∀ r ∈ routes.subnetRoutes, ∀ w ∈ met.env.missing routes, r.id ≠ (autoRoute met.env.selfNodeId met.env.now w).id)

def MappingMet.Spares (met : MappingMet) (mappings : List IpMapping) (tables : Tables) (id : String) (e : Networking.Edit) : Prop :=
  ∀ old, mappings.find? (fun m => m.id = id) = some old →
    match e.check with
    | .error _ => met.host.Bare old tables
    | .ok () =>
      let takes := (e.on old).enabled = false ∨ met.host.takes (e.on old) = true
      (takes ∧ met.saving = .written) ∨ (met.host.replaced old (e.on old) tables = tables ∧ (takes → met.saving = .untouched))

/-- Nothing has been changed by the time that the call fails, or what was changed is taken back. -/
def World.Sparing (world : World D) : EditCall D → Prop
  | .rules met call => ∀ rules, call.change met.cluster world.memory.firewall.rules = .ok rules →
      world.Spares rules (world.failure met call.reports rules)
  | .autoApply met => met.Spares world.memory.routes
  | .mapping met id e => met.Spares world.mappings world.tables id e

variable {world : World D} {met : Met} {rules : List FirewallRule} {reports : Bool}

omit [DecidableEq D] in
theorem addRoutes_nil : world.addRoutes [] = world := by
  rw [World.addRoutes, List.append_nil]

theorem withRules_iff {config : RouterConfig} : config.withRules rules = config ↔ rules = config.firewall.rules :=
  ⟨fun same => congrArg (fun c => c.firewall.rules) same, fun same => by rw [same]; rfl⟩

theorem flushOurs_iff {filter : Filter} : flushOurs filter = filter ↔ ∀ chain ∈ ourChains, filter chain = [] := by
  constructor
  · intro same chain ours
    rw [← same, flushOurs, if_pos ours]
  · intro empty
    funext chain
    rw [flushOurs]
    split
    next ours => exact (empty chain ours).symm
    next => rfl

omit [DecidableEq D] in
theorem committed_iff {filter : Filter} :
    { world with memory := world.memory.withRules rules, file := world.memory.withRules rules, filter } = world ↔
      rules = world.memory.firewall.rules ∧ world.memory = world.file ∧ filter = world.filter := by
  constructor
  · intro same
    have memory := congrArg World.memory same
    exact ⟨withRules_iff.mp memory, memory.symm.trans (congrArg World.file same), congrArg World.filter same⟩
  · rintro ⟨same, memory, rfl⟩
    rw [withRules_iff.mpr same]
    exact World.ext rfl memory rfl rfl rfl rfl

variable {iptables : Iptables} {ruleset : List (List Char)}

omit [DecidableEq D] in
/-- A handler that says so fails where `iptables-restore` does, and the chains are empty if that is
only after its test. -/
theorem putInForce_cases :
    match iptables.restore ruleset true, iptables.restore ruleset false with
    | .done, .done => (world.putInForce iptables true ruleset).1 = .ok
    | .done, _ => ∃ e, world.putInForce iptables true ruleset = (.error e, { world with filter := flushOurs world.filter })
    | _, _ => ∃ e, world.putInForce iptables true ruleset = (.error e, world) := by
  unfold World.putInForce applyRuleset
  cases iptables.restore ruleset true with
  | failed e => exact ⟨_, rfl⟩
  | rejected => exact ⟨_, rfl⟩
  | done =>
    cases iptables.restore ruleset false with
    | failed e => exact ⟨_, rfl⟩
    | rejected => exact ⟨_, rfl⟩
    | done => rfl

omit [DecidableEq D] in
theorem putInForce_silent : (world.putInForce iptables false ruleset).1 = .ok := by
  unfold World.putInForce
  split <;> rfl

omit [DecidableEq D] in
theorem error_iff {answer : Reply × World D} {e : String} {left : World D} (same : answer = (.error e, left)) :
    (answer.1 ≠ .ok → answer.2 = world) ↔ left = world := by
  rw [same]
  exact imp_iff_right (by nofun)

omit [DecidableEq D] in
theorem commit_iff : ((world.commit met reports rules).1 ≠ .ok → (world.commit met reports rules).2 = world) ↔
    world.Spares rules (world.failure met reports rules) := by
  unfold World.commit World.failure
  cases met.saved with
  | error e =>
    refine (error_iff rfl).trans (Iff.trans ?_ withRules_iff)
    exact ⟨fun same => congrArg World.memory same, fun same => World.ext same rfl rfl rfl rfl rfl⟩
  | ok done =>
    dsimp only
    rw [show (world.memory.withRules rules).firewall.autoApply = world.memory.firewall.autoApply from rfl]
    split
    · exact iff_of_true (fun failed => absurd rfl failed) trivial
    · split
      next => exact (imp_iff_right (by nofun)).trans (committed_iff.trans (by simp [World.Spares]))
      next ruleset built =>
        cases reports with
        | false => exact iff_of_true (fun failed => absurd putInForce_silent failed) trivial
        | true =>
          have taken := @putInForce_cases _ { world with memory := world.memory.withRules rules, file := world.memory.withRules rules } met.iptables ruleset
          rw [if_neg (by decide)]
          cases test : met.iptables.restore ruleset true with
          | failed e =>
            rw [test] at taken
            obtain ⟨e, same⟩ := taken
            exact (error_iff same).trans (committed_iff.trans (by simp [World.Spares]))
          | rejected =>
            rw [test] at taken
            obtain ⟨e, same⟩ := taken
            exact (error_iff same).trans (committed_iff.trans (by simp [World.Spares]))
          | done =>
            rw [test] at taken
            cases swap : met.iptables.restore ruleset false with
            | failed e =>
              rw [swap] at taken
              obtain ⟨e, same⟩ := taken
              exact (error_iff same).trans (committed_iff.trans (by rw [flushOurs_iff]; rfl))
            | rejected =>
              rw [swap] at taken
              obtain ⟨e, same⟩ := taken
              exact (error_iff same).trans (committed_iff.trans (by rw [flushOurs_iff]; rfl))
            | done =>
              rw [swap] at taken
              exact iff_of_true (fun failed => absurd taken failed) trivial

theorem refreshRoute_same {wanted : List Wanted} {r : SubnetRoute} (same : (refreshRoute wanted r).gateway = r.gateway) : refreshRoute wanted r = r := by
  unfold refreshRoute at *
  split
  · rfl
  next managed =>
    rw [if_neg managed] at same
    split
    next gateway found =>
      rw [found] at same
      dsimp only at same
      rw [same]
    next => rfl

theorem swaps_nil_iff (wanted : List Wanted) (routes : List SubnetRoute) :
    (routes.zip (routes.map (refreshRoute wanted))).filter (fun swap => decide (swap.1.gateway ≠ swap.2.gateway)) = [] ↔
      routes.map (refreshRoute wanted) = routes := by
  induction routes with
  | nil => exact iff_of_true rfl rfl
  | cons r rest ih =>
    rw [List.map_cons, List.zip_cons_cons, List.cons.injEq]
    by_cases same : (refreshRoute wanted r).gateway = r.gateway
    · rw [List.filter_cons_of_neg (by simp [same]), ih, and_iff_right (refreshRoute_same same)]
    · rw [List.filter_cons_of_pos (by simpa using Ne.symm same)]
      exact iff_of_false (List.cons_ne_nil _ _) fun both => same (congrArg SubnetRoute.gateway both.1)

section
variable {auto_ : AutoMet D} {wanted : List Wanted}

theorem refresh_still (same : refreshManagedRouteGateways wanted world.memory.routes = world.memory.routes) : world.refresh auto_ wanted = (.ok, world) := by
  have nothing := (swaps_nil_iff wanted world.memory.routes.subnetRoutes).mpr (congrArg RouteConfig.subnetRoutes same)
  unfold World.refresh
  dsimp only [refreshManagedRouteGateways]
  rw [nothing]
  rfl

theorem refresh_moved (moved : refreshManagedRouteGateways wanted world.memory.routes ≠ world.memory.routes) :
    ((world.refresh auto_ wanted).1 = .ok ↔ auto_.refreshSaved = .ok ()) ∧
      (world.refresh auto_ wanted).2.memory.routes = refreshManagedRouteGateways wanted world.memory.routes := by
  have some_ : (world.memory.routes.subnetRoutes.zip (world.memory.routes.subnetRoutes.map (refreshRoute wanted))).filter
      (fun swap => decide (swap.1.gateway ≠ swap.2.gateway)) ≠ [] := by
    intro nothing
    apply moved
    rw [refreshManagedRouteGateways, (swaps_nil_iff wanted _).mp nothing]
  unfold World.refresh
  dsimp only [refreshManagedRouteGateways]
  rw [if_neg (by simpa using some_)]
  cases saved : auto_.refreshSaved with
  | ok done => exact ⟨iff_of_true rfl rfl, rfl⟩
  | error e => exact ⟨iff_of_false (fun impossible => by cases impossible) (fun impossible => by cases impossible), rfl⟩

theorem refresh_memory : (world.refresh auto_ wanted).2.memory.routes = refreshManagedRouteGateways wanted world.memory.routes := by
  by_cases moved : refreshManagedRouteGateways wanted world.memory.routes = world.memory.routes
  · rw [refresh_still moved, moved]
  · exact (refresh_moved moved).2

end

/-- As many routes as were added are taken back from the end: these are the right ones exactly where
nothing has been added meanwhile and no route there had one of their ids. -/
theorem rollBack_iff {base old added meanwhile : List SubnetRoute} (some_ : added ≠ []) (same : base.length = old.length) :
    rollBack added.length (base ++ added ++ meanwhile) = old ++ meanwhile ↔
      base = old ∧ meanwhile = [] ∧ ∀ r ∈ old, ∀ a ∈ added, r.id ≠ a.id := by
  rcases List.eq_nil_or_concat meanwhile with rfl | ⟨front, last, rfl⟩
  · have taken : ((base ++ added ++ []).reverse.take added.length) = added.reverse := by
      rw [List.append_nil, List.reverse_append, List.take_append_of_le_length (by simp), List.take_of_length_le (by simp)]
    have gone : added.filter (fun r => !(added.reverse.map SubnetRoute.id).contains r.id) = [] := by
      refine List.filter_eq_nil_iff.mpr fun a member => ?_
      simpa using ⟨a, member, rfl⟩
    have clash (r : SubnetRoute) : (!(added.reverse.map SubnetRoute.id).contains r.id) = true ↔ ∀ a ∈ added, r.id ≠ a.id := by
      rw [Bool.not_eq_true', Bool.eq_false_iff, Ne, List.contains_iff_mem]
      simp only [List.mem_map, List.mem_reverse, not_exists, not_and]
      exact forall_congr' fun a => imp_congr_right fun _ => not_congr eq_comm
    unfold rollBack
    dsimp only
    rw [taken, List.append_nil, List.append_nil, List.filter_append, gone, List.append_nil, and_iff_right rfl]
    constructor
    · intro kept
      have all := List.length_filter_eq_length_iff.mp ((congrArg List.length kept).trans same.symm)
      have whole : base = old := by rw [← kept, List.filter_eq_self.mpr all]
      exact ⟨whole, fun r member => (clash r).mp (all r (whole ▸ member))⟩
    · rintro ⟨rfl, apart⟩
      exact List.filter_eq_self.mpr fun r member => (clash r).mpr (apart r member)
  · refine iff_of_false (fun kept => ?_) fun both => absurd both.2.1 (by simp)
    have named : last.id ∈ ((base ++ added ++ front.concat last).reverse.take added.length).map SubnetRoute.id := by
      obtain ⟨n, length⟩ := Nat.exists_eq_succ_of_ne_zero (mt List.length_eq_zero_iff.mp some_)
      rw [List.concat_eq_append, ← List.append_assoc, List.reverse_concat, length, List.take_succ_cons]
      exact List.mem_cons_self
    have inside : last ∈ rollBack added.length (base ++ added ++ front.concat last) := by
      rw [kept]
      simp
    have absent := (List.mem_filter.mp inside).2
    rw [Bool.not_eq_true', Bool.eq_false_iff, Ne, List.contains_iff_mem] at absent
    exact absent named

theorem autoApply_iff (met : AutoMet D) : ((world.autoApply met).1 ≠ .ok → (world.autoApply met).2 = world.addRoutes met.meanwhile) ↔
    met.Spares world.memory.routes := by
  have routesOf {left : World D} (same : left = world.addRoutes met.meanwhile) :
      left.memory.routes.subnetRoutes = world.memory.routes.subnetRoutes ++ met.meanwhile :=
    congrArg (fun w => w.memory.routes.subnetRoutes) same
  have lengths : (refreshManagedRouteGateways (met.env.wanted world.memory.routes) world.memory.routes).subnetRoutes.length =
      world.memory.routes.subnetRoutes.length := List.length_map _
  have sameRoutes : refreshManagedRouteGateways (met.env.wanted world.memory.routes) world.memory.routes = world.memory.routes ↔
      (refreshManagedRouteGateways (met.env.wanted world.memory.routes) world.memory.routes).subnetRoutes = world.memory.routes.subnetRoutes :=
    ⟨fun same => congrArg RouteConfig.subnetRoutes same,
      fun same => congrArg (fun subnetRoutes => { world.memory.routes with subnetRoutes }) same⟩
  unfold World.autoApply AutoMet.Spares
  dsimp only
  split
  next idle =>
    refine iff_of_true (fun failed => absurd rfl failed) ?_
    rcases Bool.or_eq_true_iff.mp idle with alone | nothing
    · exact .inl (List.isEmpty_iff.mp alone)
    · exact .inr (.inl (List.isEmpty_iff.mp nothing))
  next busy =>
    have peers : met.env.peers ≠ [] := fun none_ => busy (by simp [none_])
    have some_ : met.env.wanted world.memory.routes ≠ [] := fun none_ => busy (by simp [none_])
    rw [or_iff_right peers, or_iff_right some_, refresh_memory, Surroundings.missing_eq]
    split
    next covered =>
      rw [if_pos (List.isEmpty_iff.mp covered)]
      by_cases still : refreshManagedRouteGateways (met.env.wanted world.memory.routes) world.memory.routes = world.memory.routes
      · rw [refresh_still still]
        exact iff_of_true (fun failed => absurd rfl failed) (.inr still)
      · rw [or_iff_left still, ← (refresh_moved still).1]
        refine ⟨fun undone => ?_, fun ok failed => absurd ok failed⟩
        by_contra failed
        have routes := routesOf (undone failed)
        rw [World.addRoutes, (refresh_moved still).2] at routes
        exact still (sameRoutes.mpr (List.append_cancel_right routes))
    next missing =>
      rw [if_neg (by simpa using missing)]
      cases met.added with
      | ok done => exact iff_of_true (fun failed => absurd rfl failed) (.inl rfl)
      | error e =>
        have planted : (met.env.missing world.memory.routes).map (autoRoute met.env.selfNodeId met.env.now) ≠ [] := by simpa using missing
        have back := @rollBack_iff _ _ _ met.meanwhile planted lengths
        rw [List.length_map] at back
        rw [or_iff_right (by nofun)]
        constructor
        · intro undone
          have routes := routesOf (undone (by nofun))
          simp only [World.addRoutes, refresh_memory] at routes
          obtain ⟨still, alone, apart⟩ := back.mp routes
          exact ⟨sameRoutes.mpr still, alone, fun r member w missing => apart r member _ (List.mem_map_of_mem missing)⟩
        · rintro ⟨still, alone, apart⟩ _
          have kept := back.mpr ⟨sameRoutes.mp still, alone, fun r member a planted => by
            obtain ⟨w, missing, rfl⟩ := List.mem_map.mp planted
            exact apart r member w missing⟩
          rw [still] at kept
          rw [refresh_still still]
          simp only [World.addRoutes]
          rw [kept]

omit [DecidableEq D] in
theorem tables_iff {tables : Tables} : { world with tables } = world ↔ tables = world.tables :=
  ⟨fun same => congrArg World.tables same, fun same => by rw [same]⟩

omit [DecidableEq D] in
theorem updateMapping_iff (met : MappingMet) (id : String) (e : Networking.Edit) :
    ((world.updateMapping met id e).1 ≠ .ok → (world.updateMapping met id e).2 = world) ↔ met.Spares world.mappings world.tables id e := by
  unfold World.updateMapping MappingMet.Spares Networking.Host.updateIpMapping
  cases found : world.mappings.find? fun m => m.id = id with
  | none => exact iff_of_true (fun _ => rfl) fun old there => by cases there
  | some old =>
    have only {P : IpMapping → Prop} : (∀ other, some old = some other → P other) ↔ P old :=
      ⟨fun all => all old rfl, fun holds other same => Option.some.inj same ▸ holds⟩
    rw [only]
    dsimp only
    cases e.check with
    | error message => exact (error_iff rfl).trans (tables_iff.trans Networking.removeMappingRules_same_iff)
    | ok done =>
      have takes := @Networking.applied_ok_iff met.host (e.on old) (met.host.removeMappingRules old world.tables)
      rw [Networking.Host.replaced, ← takes]
      dsimp only
      rcases met.host.applyMappingRules (e.on old) (met.host.removeMappingRules old world.tables) with ⟨applied, after⟩
      cases applied with
      | error message =>
        refine (error_iff rfl).trans (tables_iff.trans ?_)
        simp
      | ok done =>
        dsimp only
        cases met.saving with
        | written => exact iff_of_true (fun failed => absurd rfl failed) (.inl ⟨rfl, rfl⟩)
        | untouched =>
          refine (error_iff rfl).trans (tables_iff.trans ?_)
          simp
        | torn =>
          refine (error_iff rfl).trans (iff_of_false (fun same => ?_) (by simp))
          have empty : [] = world.mappings := congrArg World.mappings same
          rw [← empty] at found
          cases found

/-- A call that fails leaves everything as it was exactly where nothing has been changed by then, or
what was changed is taken back. -/
theorem undone_iff (world : World D) (call : EditCall D) : world.Undone call ↔ world.Sparing call := by
  cases call with
  | rules met call =>
    unfold World.Undone World.Sparing EditCall.others World.serve World.editRules
    rw [addRoutes_nil]
    dsimp only
    cases changed : call.change met.cluster world.memory.firewall.rules with
    | error message => exact iff_of_true (fun _ => rfl) fun rules there => by cases there
    | ok rules =>
      refine commit_iff.trans ⟨fun spares other same => ?_, fun all => all rules rfl⟩
      cases same
      exact spares
  | autoApply met => exact autoApply_iff met
  | mapping met id e =>
    unfold World.Undone EditCall.others
    rw [addRoutes_nil]
    exact updateMapping_iff met id e

def bareConfig : RouterConfig := ⟨⟨fun _ => [], [], [], true⟩, ⟨[], false⟩⟩

def bareWorld : World String := ⟨bareConfig, bareConfig, fun _ => [], fun _ => .empty, [], fun _ => []⟩

def noTelnet : FirewallRule := ⟨"rule-1", true, 1, .deny, .input, .any, .any, .tcp, [⟨"23", .dst⟩], true, false, none⟩

def fullDisk : Met where
  cluster := none
  saved := .error "No space left on device (os error 28)"
  node := ⟨"node-a", [], []⟩
  iptables := ⟨fun _ _ => .done, fun _ filter => filter⟩

/-- A rule that could not be saved is refused, and stays in memory. -/
theorem refused_rule_stays : ¬bareWorld.Undone (.rules fullDisk (.create "rule-2" noTelnet)) := by
  intro undone
  have answer : bareWorld.serve (.rules fullDisk (.create "rule-2" noTelnet)) =
      (.error "No space left on device (os error 28)", { bareWorld with memory := bareConfig.withRules [noTelnet] }) := rfl
  have same := undone (by rw [answer]; nofun)
  rw [answer] at same
  exact absurd (congrArg (fun w => w.memory.firewall.rules.length) same) (by decide)

end Router
