import WolfStack.Router.WorkloadRoutes
import Mathlib.Logic.Function.Basic

/-! What subnet routes install in the kernel, and how a configuration that another node has
sent is brought there. Every command does what it is there for. -/

namespace Router
open Auth

inductive Plumbing where
  | forwardIn
  | forwardOut
  | masquerade
  | rawAccept
deriving DecidableEq, Repr

/-- What the kernel holds for a network: the next hop of its IPv4 route, whether there is an
IPv6 route to it by way of the WolfNet interface, and the rules of `iptables` and, where the
flag is set, of `ip6tables`. -/
@[ext] structure Slot where
  via : Option String
  device : Bool
  rules : Bool → Plumbing → Bool

namespace Slot

def empty : Slot := ⟨none, false, fun _ _ => false⟩

/-- `enable_subnet_route_forwarding`, or its counterpart for IPv6. A rule that is there is
not added again. -/
def enableForwarding (slot : Slot) (isV6 : Bool) : Slot := { slot with rules := Function.update slot.rules isV6 fun _ => true }

def disableForwarding (slot : Slot) (isV6 : Bool) : Slot := { slot with rules := Function.update slot.rules isV6 fun _ => false }

end Slot

/-- `destination` is the network that a text names to the kernel. -/
structure RouteNode (D : Type) where
  selfNodeId : String
  own : List String
  ipv6Available : Bool
  destination : String → D

variable {D : Type}

/-- `apply_subnet_route` at the network of the route. -/
def applySubnetRoute (node : RouteNode D) (v6Routing : Bool) (route : SubnetRoute) (previousGateway : Option String)
    (slot : Slot) : Except String Unit × Slot :=
  let isV6 := isIpv6Cidr route.subnetCidr
  if !cidrParses route.subnetCidr then
    (.error ("Invalid subnet CIDR: " ++ route.subnetCidr), slot)
  else if (parseIpv4 route.gateway.toList).isNone then (.error ("Invalid gateway IP: " ++ route.gateway), slot)
  else if isV6 && !v6Routing then (.ok (), slot)
  else if isV6 && !node.ipv6Available then
    (.error ("IPv6 subnet routing is enabled but IPv6 is disabled on this node — cannot apply " ++ route.subnetCidr ++
      ". Set net.ipv6.conf.all.disable_ipv6=0 (and enable IPv6 forwarding) to use IPv6 subnet routes."), slot)
  else if nodeIsRouteGateway node.own route then (.ok (), slot.enableForwarding isV6)
  else if isV6 then (.ok (), { slot with device := true })
  else match slot.via with
    | none => (.ok (), { slot with via := some route.gateway })
    | some gw =>
      if gw = route.gateway then (.ok (), slot)
      else if previousGateway = some gw then (.ok (), { slot with via := some route.gateway })
      else (.error ("Route to " ++ route.subnetCidr ++ " already exists via " ++ gw ++
        " (installed outside WolfStack). Refusing to overwrite — remove the existing route first if you want WolfStack to manage it."), slot)

/-- `remove_subnet_route` at the network of the route. -/
def removeSubnetRoute (node : RouteNode D) (route : SubnetRoute) (slot : Slot) : Slot :=
  let isV6 := isIpv6Cidr route.subnetCidr
  if nodeIsRouteGateway node.own route then slot.disableForwarding isV6
  else if isV6 then { slot with device := false }
  else match slot.via with
    | none => slot
    | some gw => if gw ≠ route.gateway then slot else { slot with via := none }

def RouteNode.here (node : RouteNode D) (config : RouteConfig) : List SubnetRoute :=
  config.subnetRoutes.filter fun r => r.enabled && nodeHandlesRoute node.own r node.selfNodeId

variable [DecidableEq D]

abbrev Kernel (D : Type) := D → Slot

def applyNew (node : RouteNode D) (v6Routing : Bool) (oldHere : List SubnetRoute) (at_ : Kernel D × List String) (new : SubnetRoute) :
    Kernel D × List String :=
  let prevGw := (oldHere.find? fun o => o.subnetCidr = new.subnetCidr).map SubnetRoute.gateway
  let destination := node.destination new.subnetCidr
  match applySubnetRoute node v6Routing new prevGw (at_.1 destination) with
  | (.ok (), slot) => (Function.update at_.1 destination slot, new.id :: at_.2)
  | (.error _, slot) => (Function.update at_.1 destination slot, at_.2)

def dropOld (newHere : List SubnetRoute) (appliedOkIds : List String) (old : SubnetRoute) : Bool :=
  match newHere.find? fun n => n.id = old.id, newHere.find? fun n => n.subnetCidr = old.subnetCidr with
  | _, some _ => false
  | some n, none => appliedOkIds.contains n.id
  | none, none => true

def dropIfStale (node : RouteNode D) (newHere : List SubnetRoute) (appliedOkIds : List String) (kernel : Kernel D)
    (old : SubnetRoute) : Kernel D :=
  if dropOld newHere appliedOkIds old then
    Function.update kernel (node.destination old.subnetCidr) (removeSubnetRoute node old (kernel (node.destination old.subnetCidr)))
  else kernel

/-- The part of `config_receive` that is about subnet routes. The new configuration has been
saved by then, and it is its flag that `apply_subnet_route` reads. -/
def configReceive (node : RouteNode D) (old new : RouteConfig) (kernel : Kernel D) : Kernel D :=
  let oldHere := node.here old
  let newHere := node.here new
  let (kernel, appliedOkIds) := newHere.foldl (applyNew node new.ipv6SubnetRouting oldHere) (kernel, [])
  oldHere.foldl (dropIfStale node newHere appliedOkIds) kernel

/-- The routes of a configuration applied where there was nothing, as at startup. -/
def applyAll (node : RouteNode D) (config : RouteConfig) : Kernel D :=
  (node.here config).foldl (fun kernel route =>
    let destination := node.destination route.subnetCidr
    Function.update kernel destination (applySubnetRoute node config.ipv6SubnetRouting route none (kernel destination)).2)
    fun _ => .empty

end Router
