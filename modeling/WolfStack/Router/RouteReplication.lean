import WolfStack.Router.KernelRoutes

/-! When is a configuration that was received brought to the kernel? What applying and
removing does is said for one network at a time, and for each of the three things that the
kernel holds for it. -/

namespace Router
open Auth

variable {D : Type} {node : RouteNode D} {v6Routing : Bool} {route : SubnetRoute} {prev : Option String} {slot : Slot}

/-- What a route is to a node: rules at its gateway, else a route of its family. -/
inductive Role where
  | forwards
  | device
  | via
deriving DecidableEq, Repr

def SubnetRoute.isV6 (route : SubnetRoute) : Bool := isIpv6Cidr route.subnetCidr

def SubnetRoute.formed (route : SubnetRoute) : Bool :=
  cidrParses route.subnetCidr && (parseIpv4 route.gateway.toList).isSome

def RouteNode.place (node : RouteNode D) (route : SubnetRoute) : Role :=
  if nodeIsRouteGateway node.own route then .forwards else if route.isV6 then .device else .via

/-- What it is when it is applied: nothing where it does not parse, nor where IPv6 is off. -/
def RouteNode.role (node : RouteNode D) (v6Routing : Bool) (route : SubnetRoute) : Option Role :=
  if route.formed then
    if route.isV6 && !(v6Routing && node.ipv6Available) then none else some (node.place route)
  else none

/-- Whether a next hop is put in the place of another: there is none, it is the same, or it
is what was there before. -/
def taken (prev : Option String) (gateway : String) (current : Option String) : Bool :=
  current = none || current = some gateway || current = prev

def swap (prev current : Option String) (gateway : String) : Option String :=
  if taken prev gateway current then some gateway else current

def Slot.apply (prev : Option String) (route : SubnetRoute) (slot : Slot) : Option Role → Slot
  | none => slot
  | some .forwards => slot.enableForwarding route.isV6
  | some .device => { slot with device := true }
  | some .via => { slot with via := swap prev slot.via route.gateway }

/-- Whether applying it is reported as done: an IPv6 route counts as done where IPv6 is off. -/
def Slot.accepts (prev : Option String) (v6Routing : Bool) (route : SubnetRoute) (slot : Slot) : Option Role → Bool
  | none => route.formed && (route.isV6 && !v6Routing)
  | some .via => taken prev route.gateway slot.via
  | some _ => true

theorem apply_spec : (applySubnetRoute node v6Routing route prev slot).2 = slot.apply prev route (node.role v6Routing route) ∧
    (applySubnetRoute node v6Routing route prev slot).1.isOk = slot.accepts prev v6Routing route (node.role v6Routing route) := by
  unfold applySubnetRoute
  dsimp only
  split
  · rename_i unparsed
    have unformed : route.formed = false := by
      rw [SubnetRoute.formed, (Bool.not_eq_true' _).mp unparsed, Bool.false_and]
    simp [RouteNode.role, unformed, Slot.apply, Slot.accepts, Except.isOk, Except.toBool]
  · rename_i parsed
    split
    · rename_i astray
      have unformed : route.formed = false := by
        rw [SubnetRoute.formed, Option.isNone_iff_eq_none.mp astray, Option.isSome_none, Bool.and_false]
      simp [RouteNode.role, unformed, Slot.apply, Slot.accepts, Except.isOk, Except.toBool]
    · rename_i hop
      have formed : route.formed = true := by
        rw [Bool.not_eq_true', Bool.not_eq_false] at parsed
        rw [SubnetRoute.formed, parsed, Bool.true_and]
        exact Option.isSome_iff_ne_none.mpr fun none_ => hop (Option.isNone_iff_eq_none.mpr none_)
      unfold RouteNode.role
      rw [if_pos formed]
      split
      · rename_i off
        have v6 : route.isV6 = true := (Bool.and_eq_true_iff.mp off).1
        have unset : v6Routing = false := by simpa using (Bool.and_eq_true_iff.mp off).2
        simp [v6, unset, formed, Slot.apply, Slot.accepts, Except.isOk, Except.toBool]
      · rename_i not_off
        split
        · rename_i unavailable
          have v6 : route.isV6 = true := (Bool.and_eq_true_iff.mp unavailable).1
          have missing : node.ipv6Available = false := by simpa using (Bool.and_eq_true_iff.mp unavailable).2
          have set : v6Routing = true := by
            cases v6Routing with
            | true => rfl
            | false => exact absurd (by rw [Bool.not_false, Bool.and_true]; exact v6) not_off
          simp [v6, set, missing, Slot.apply, Slot.accepts, Except.isOk, Except.toBool]
        · rename_i available
          have usable : (route.isV6 && !(v6Routing && node.ipv6Available)) = false := by
            unfold SubnetRoute.isV6
            revert not_off available
            cases isIpv6Cidr route.subnetCidr <;> cases v6Routing <;> cases node.ipv6Available <;> simp
          rw [usable, if_neg Bool.false_ne_true]
          unfold RouteNode.place
          split
          · exact ⟨rfl, rfl⟩
          · split
            · rename_i v6
              have same : route.isV6 = true := v6
              rw [if_pos same]
              exact ⟨rfl, rfl⟩
            · rename_i v4
              have same : ¬route.isV6 = true := v4
              rw [if_neg same]
              obtain ⟨via, device, rules⟩ := slot
              simp only [Slot.apply, Slot.accepts, swap, taken]
              cases via with
              | none => simp [Except.isOk, Except.toBool]
              | some gw =>
                dsimp only
                split
                · rename_i equal
                  simp [Except.isOk, Except.toBool, equal]
                · split
                  · rename_i ours
                    simp [Except.isOk, Except.toBool, ours]
                  · rename_i other foreign
                    have apart : ¬some gw = prev := fun same => foreign same.symm
                    simp [Except.isOk, Except.toBool, other, apart]

def Slot.remove (route : SubnetRoute) (slot : Slot) : Role → Slot
  | .forwards => slot.disableForwarding route.isV6
  | .device => { slot with device := false }
  | .via => { slot with via := if slot.via = some route.gateway then none else slot.via }

theorem remove_spec : removeSubnetRoute node route slot = slot.remove route (node.place route) := by
  unfold removeSubnetRoute RouteNode.place
  dsimp only
  split
  · rfl
  · split
    · rename_i v6
      have same : route.isV6 = true := v6
      rw [if_pos same]
      rfl
    · rename_i v4
      have same : ¬route.isV6 = true := v4
      rw [if_neg same]
      obtain ⟨via, device, rules⟩ := slot
      cases via with
      | none => rfl
      | some gw =>
        simp only [Slot.remove]
        split
        · rename_i other
          rw [if_neg (fun equal => other (Option.some.inj equal))]
        · rename_i same
          rw [if_pos (congrArg some (not_ne_iff.mp same))]

namespace Slot

/-- Routes applied one after the other, with one next hop that counts as theirs. -/
def applied (node : RouteNode D) (v6Routing : Bool) (prev : Option String) (routes : List SubnetRoute) (slot : Slot) : Slot :=
  routes.foldl (fun slot route => slot.apply prev route (node.role v6Routing route)) slot

def removed (node : RouteNode D) (routes : List SubnetRoute) (slot : Slot) : Slot :=
  routes.foldl (fun slot route => slot.remove route (node.place route)) slot

end Slot

/-- The next hops of those that come to a route of their own, in order. -/
def RouteNode.gateways (node : RouteNode D) (v6Routing : Bool) (routes : List SubnetRoute) : List String :=
  (routes.filter fun r => node.role v6Routing r = some .via).map SubnetRoute.gateway

variable {routes : List SubnetRoute}

theorem applied_via : (slot.applied node v6Routing prev routes).via = (node.gateways v6Routing routes).foldl (swap prev) slot.via := by
  induction routes generalizing slot with
  | nil => rfl
  | cons route rest ih =>
    rw [Slot.applied, List.foldl_cons, ← Slot.applied, ih]
    cases role : node.role v6Routing route with
    | none => simp [Slot.apply, RouteNode.gateways, role]
    | some r => cases r <;> simp [Slot.apply, Slot.enableForwarding, RouteNode.gateways, role]

theorem applied_device : (slot.applied node v6Routing prev routes).device =
    (slot.device || routes.any fun r => node.role v6Routing r = some .device) := by
  induction routes generalizing slot with
  | nil => simp [Slot.applied]
  | cons route rest ih =>
    rw [Slot.applied, List.foldl_cons, ← Slot.applied, ih, List.any_cons]
    cases role : node.role v6Routing route with
    | none => simp [Slot.apply]
    | some r => cases r <;> simp [Slot.apply, Slot.enableForwarding]

theorem applied_rules (isV6 : Bool) (kind : Plumbing) : (slot.applied node v6Routing prev routes).rules isV6 kind =
    (slot.rules isV6 kind || routes.any fun r => node.role v6Routing r = some .forwards && r.isV6 = isV6) := by
  induction routes generalizing slot with
  | nil => simp [Slot.applied]
  | cons route rest ih =>
    rw [Slot.applied, List.foldl_cons, ← Slot.applied, ih, List.any_cons]
    cases role : node.role v6Routing route with
    | none => simp [Slot.apply]
    | some r =>
      cases r with
      | forwards =>
        by_cases same : route.isV6 = isV6
        · subst same
          simp [Slot.apply, Slot.enableForwarding]
        · simp [Slot.apply, Slot.enableForwarding, Function.update_of_ne (Ne.symm same), same]
      | _ => simp [Slot.apply]

theorem removed_via : (slot.removed node routes).via =
    if routes.any (fun r => node.place r = .via && some r.gateway = slot.via) then none else slot.via := by
  induction routes generalizing slot with
  | nil => rfl
  | cons route rest ih =>
    rw [Slot.removed, List.foldl_cons, ← Slot.removed, ih, List.any_cons]
    cases place : node.place route with
    | via =>
      by_cases same : slot.via = some route.gateway
      · simp [Slot.remove, same]
      · simp [Slot.remove, same, Ne.symm same]
    | forwards =>
      rw [decide_eq_false (by decide), Bool.false_and, Bool.false_or]
      rfl
    | device =>
      rw [decide_eq_false (by decide), Bool.false_and, Bool.false_or]
      rfl

theorem removed_device : (slot.removed node routes).device = (slot.device && !routes.any fun r => node.place r = .device) := by
  induction routes generalizing slot with
  | nil => simp [Slot.removed]
  | cons route rest ih =>
    rw [Slot.removed, List.foldl_cons, ← Slot.removed, ih, List.any_cons]
    cases place : node.place route <;> simp [Slot.remove, Slot.disableForwarding]

theorem removed_rules (isV6 : Bool) (kind : Plumbing) : (slot.removed node routes).rules isV6 kind =
    (slot.rules isV6 kind && !routes.any fun r => node.place r = .forwards && r.isV6 = isV6) := by
  induction routes generalizing slot with
  | nil => simp [Slot.removed]
  | cons route rest ih =>
    rw [Slot.removed, List.foldl_cons, ← Slot.removed, ih, List.any_cons]
    cases place : node.place route with
    | forwards =>
      by_cases same : route.isV6 = isV6
      · subst same
        simp [Slot.remove, Slot.disableForwarding]
      · simp [Slot.remove, Slot.disableForwarding, Function.update_of_ne (Ne.symm same), same]
    | _ => simp [Slot.remove]

variable {gateway : String} {gateways : List String} {current : Option String}

theorem swaps_stay (apart : some gateway ≠ prev) : gateways.foldl (swap prev) (some gateway) = some gateway := by
  induction gateways with
  | nil => rfl
  | cons other rest ih =>
    have stays : swap prev (some gateway) other = some gateway := by
      unfold swap taken
      by_cases same : gateway = other
      · simp [same]
      · simp [same, apart]
    rw [List.foldl_cons, stays, ih]

theorem swaps_same_iff : gateways.foldl (swap (some gateway)) (some gateway) = some gateway ↔ ∀ g ∈ gateways, g = gateway := by
  induction gateways with
  | nil => simp
  | cons other rest ih =>
    rw [List.foldl_cons, List.forall_mem_cons]
    by_cases same : other = gateway
    · have stays : swap (some gateway) (some gateway) other = some gateway := by simp [swap, taken, same]
      rw [stays, ih]
      exact (and_iff_right same).symm
    · have yields : swap (some gateway) (some gateway) other = some other := by simp [swap, taken]
      rw [yields, swaps_stay (fun equal => same (Option.some.inj equal))]
      simp [same]

theorem swaps_fresh : gateways.foldl (swap none) none = gateways.head? := by
  cases gateways with
  | nil => rfl
  | cons first rest =>
    rw [List.foldl_cons, List.head?_cons]
    exact swaps_stay (Option.some_ne_none first)

/-- The first comes to stand where there is room for it and what stood before does not have
another take its place, or where it takes the place of what stood before. -/
def FirstStands (prev current : Option String) (gateways : List String) : Prop :=
  match gateways with
  | [] => current = none
  | first :: rest =>
    (current = none ∨ current = some first) ∧ (prev = some first → ∀ g ∈ rest, g = first) ∨
      current ≠ none ∧ current ≠ some first ∧ current = prev

theorem swaps_first_iff : gateways.foldl (swap prev) current = gateways.head? ↔ FirstStands prev current gateways := by
  cases gateways with
  | nil => exact Iff.rfl
  | cons first rest =>
    rw [List.foldl_cons, List.head?_cons]
    simp only [FirstStands]
    by_cases room : current = none ∨ current = some first
    · have stands : swap prev current first = some first := by
        unfold swap taken
        rcases room with free | same
        · simp [free]
        · simp [same]
      have kept : rest.foldl (swap prev) (some first) = some first ↔ (prev = some first → ∀ g ∈ rest, g = first) := by
        by_cases before : prev = some first
        · rw [before, swaps_same_iff]
          exact ⟨fun all _ => all, fun all => all rfl⟩
        · rw [swaps_stay (Ne.symm before)]
          exact iff_of_true rfl fun same => absurd same before
      rw [stands, kept]
      have settled : ¬(current ≠ none ∧ current ≠ some first ∧ current = prev) := by
        rintro ⟨held, other, -⟩
        exact room.elim held other
      rw [or_iff_left settled, and_iff_right room]
    · rw [not_or] at room
      by_cases ours : current = prev
      · have stands : swap prev current first = some first := by simp [swap, taken, ours]
        have apart : some first ≠ prev := fun same => room.2 (ours.trans same.symm)
        rw [stands, swaps_stay apart]
        exact iff_of_true rfl (.inr ⟨room.1, room.2, ours⟩)
      · obtain ⟨other, held⟩ := Option.ne_none_iff_exists'.mp room.1
        have refused : swap prev current first = current := by simp [swap, taken, room, ours]
        rw [refused, held, swaps_stay (fun same => ours (held.trans same)), ← held]
        refine iff_of_false room.2 ?_
        rintro (⟨free | same, -⟩ | ⟨-, -, same⟩)
        · exact room.1 free
        · exact room.2 same
        · exact ours same

theorem FirstStands.taken {before after : List String} (stands : FirstStands prev current (before ++ gateway :: after)) :
    taken prev gateway (before.foldl (swap prev) current) = true ↔ (before ++ gateway :: after).head? = some gateway := by
  cases before with
  | nil =>
    refine iff_of_true ?_ rfl
    rcases stands with ⟨free | same, -⟩ | ⟨-, -, ours⟩
    · simp [Router.taken, free]
    · simp [Router.taken, same]
    · simp [Router.taken, ours]
  | cons first rest =>
    rw [List.foldl_cons, List.cons_append, List.head?_cons, Option.some.injEq]
    have stood : swap prev current first = some first := by
      rcases stands with ⟨free | same, -⟩ | ⟨-, -, ours⟩
      · simp [swap, Router.taken, free]
      · simp [swap, Router.taken, same]
      · simp [swap, Router.taken, ours]
    rw [stood]
    by_cases apart : some first = prev
    · rcases stands with ⟨-, all⟩ | ⟨-, other, ours⟩
      · have each := all apart.symm
        have equal : gateway = first := each gateway (List.mem_append_right _ List.mem_cons_self)
        have still : rest.foldl (swap prev) (some first) = some first := by
          rw [← apart]
          exact swaps_same_iff.mpr fun g member => each g (List.mem_append_left _ member)
        rw [still, equal]
        simp [Router.taken]
      · exact absurd (ours.trans apart.symm) other
    · rw [swaps_stay apart]
      simp [Router.taken, apart]

/-! ### The lists of a node -/

variable [DecidableEq D] {oldHere newHere : List SubnetRoute} {kernel : Kernel D} {ids : List String} {d : D}

def RouteNode.at_ (node : RouteNode D) (d : D) (routes : List SubnetRoute) : List SubnetRoute :=
  routes.filter fun r => node.destination r.subnetCidr = d

def RouteNode.prevAt (node : RouteNode D) (oldHere : List SubnetRoute) (d : D) : Option String :=
  (oldHere.find? fun o => node.destination o.subnetCidr = d).map SubnetRoute.gateway

def Spelt (node : RouteNode D) (routes : List SubnetRoute) : Prop :=
  ∀ a ∈ routes, ∀ b ∈ routes, node.destination a.subnetCidr = node.destination b.subnetCidr → a.subnetCidr = b.subnetCidr

theorem Spelt.hop (spelt : Spelt node (oldHere ++ newHere)) {n : SubnetRoute} (member : n ∈ newHere) :
    (oldHere.find? fun o => o.subnetCidr = n.subnetCidr).map SubnetRoute.gateway = node.prevAt oldHere (node.destination n.subnetCidr) := by
  have same : ∀ o ∈ oldHere, (decide (o.subnetCidr = n.subnetCidr)) =
      decide (node.destination o.subnetCidr = node.destination n.subnetCidr) := by
    intro o among
    have apart := spelt o (List.mem_append_left _ among) n (List.mem_append_right _ member)
    exact decide_eq_decide.mpr ⟨congrArg node.destination, apart⟩
  rw [RouteNode.prevAt, ← List.head?_filter, ← List.head?_filter, List.filter_congr same]

theorem applyNew_spec (at_ : Kernel D × List String) (new : SubnetRoute)
    (prev_ : (oldHere.find? fun o => o.subnetCidr = new.subnetCidr).map SubnetRoute.gateway = prev) :
    (applyNew node v6Routing oldHere at_ new).1 = Function.update at_.1 (node.destination new.subnetCidr)
      ((at_.1 (node.destination new.subnetCidr)).apply prev new (node.role v6Routing new)) ∧
    (applyNew node v6Routing oldHere at_ new).2 =
      if (at_.1 (node.destination new.subnetCidr)).accepts prev v6Routing new (node.role v6Routing new) then new.id :: at_.2 else at_.2 := by
  obtain ⟨left, done⟩ := @apply_spec D node v6Routing new prev (at_.1 (node.destination new.subnetCidr))
  rw [← left, ← done]
  unfold applyNew
  dsimp only
  rw [prev_]
  generalize applySubnetRoute node v6Routing new prev (at_.1 (node.destination new.subnetCidr)) = result
  obtain ⟨answer, after⟩ := result
  cases answer with
  | ok done => exact ⟨rfl, rfl⟩
  | error e => exact ⟨rfl, rfl⟩

theorem applied_kernel (spelt : Spelt node (oldHere ++ newHere)) (routes : List SubnetRoute) (among : ∀ n ∈ routes, n ∈ newHere)
    (kernel : Kernel D) (ids : List String) (d : D) : (routes.foldl (applyNew node v6Routing oldHere) (kernel, ids)).1 d =
      (kernel d).applied node v6Routing (node.prevAt oldHere d) (node.at_ d routes) := by
  induction routes generalizing kernel ids with
  | nil => rfl
  | cons new rest ih =>
    have step : (applyNew node v6Routing oldHere (kernel, ids) new).1 = _ :=
      (applyNew_spec (kernel, ids) new (spelt.hop (among new List.mem_cons_self))).1
    rw [List.foldl_cons, ← Prod.mk.eta (p := applyNew node v6Routing oldHere (kernel, ids) new), ih (fun n member => among n (List.mem_cons_of_mem _ member)), step]
    by_cases here : node.destination new.subnetCidr = d
    · subst here
      simp [RouteNode.at_, Slot.applied]
    · simp [RouteNode.at_, here, Function.update_of_ne (Ne.symm here)]

/-- Whether a new route is taken up: what comes to a route of its own has the next hop of
the first to do so, and an IPv6 route counts as taken up where IPv6 is off. -/
def TakenUp (node : RouteNode D) (v6Routing : Bool) (newHere : List SubnetRoute) (n : SubnetRoute) : Prop :=
  match node.role v6Routing n with
  | none => (n.formed && (n.isV6 && !v6Routing)) = true
  | some .via => (node.gateways v6Routing (node.at_ (node.destination n.subnetCidr) newHere)).head? = some n.gateway
  | some _ => True

/-- The first new route of each network that comes to a route of its own comes to stand. -/
def Standing (node : RouteNode D) (v6Routing : Bool) (oldHere newHere : List SubnetRoute) (kernel : Kernel D) : Prop :=
  ∀ n ∈ newHere, FirstStands (node.prevAt oldHere (node.destination n.subnetCidr)) (kernel (node.destination n.subnetCidr)).via
    (node.gateways v6Routing (node.at_ (node.destination n.subnetCidr) newHere))

omit [DecidableEq D] in
theorem gateways_append (first second : List SubnetRoute) :
    node.gateways v6Routing (first ++ second) = node.gateways v6Routing first ++ node.gateways v6Routing second := by
  simp [RouteNode.gateways]

theorem slot_accepts_iff {before after : List SubnetRoute} {n : SubnetRoute} (split : newHere = before ++ n :: after)
    (stands : FirstStands prev slot.via (node.gateways v6Routing (node.at_ (node.destination n.subnetCidr) newHere))) :
    (slot.applied node v6Routing prev (node.at_ (node.destination n.subnetCidr) before)).accepts prev v6Routing n (node.role v6Routing n) = true ↔
      TakenUp node v6Routing newHere n := by
  unfold TakenUp
  cases role : node.role v6Routing n with
  | none => exact Iff.rfl
  | some r =>
    cases r with
    | via =>
      have parts : node.gateways v6Routing (node.at_ (node.destination n.subnetCidr) newHere) =
          node.gateways v6Routing (node.at_ (node.destination n.subnetCidr) before) ++
            n.gateway :: node.gateways v6Routing (node.at_ (node.destination n.subnetCidr) after) := by
        have itself : node.gateways v6Routing (node.at_ (node.destination n.subnetCidr) (n :: after)) =
            n.gateway :: node.gateways v6Routing (node.at_ (node.destination n.subnetCidr) after) := by
          simp [RouteNode.at_, RouteNode.gateways, role]
        rw [split, ← itself, ← gateways_append]
        simp only [RouteNode.at_, List.filter_append]
      rw [parts] at stands ⊢
      simp only [Slot.accepts, applied_via]
      exact stands.taken
    | forwards => exact iff_of_true rfl trivial
    | device => exact iff_of_true rfl trivial

theorem applied_one {before : List SubnetRoute} {current : Kernel D} {n : SubnetRoute}
    (reached : ∀ d, current d = (kernel d).applied node v6Routing (node.prevAt oldHere d) (node.at_ d before)) (d : D) :
    Function.update current (node.destination n.subnetCidr) ((current (node.destination n.subnetCidr)).apply
      (node.prevAt oldHere (node.destination n.subnetCidr)) n (node.role v6Routing n)) d =
      (kernel d).applied node v6Routing (node.prevAt oldHere d) (node.at_ d (before ++ [n])) := by
  by_cases here : node.destination n.subnetCidr = d
  · subst here
    simp [RouteNode.at_, Slot.applied, reached]
  · rw [Function.update_of_ne (Ne.symm here), reached]
    simp [RouteNode.at_, here]

theorem applied_ids (spelt : Spelt node (oldHere ++ newHere)) (stands : Standing node v6Routing oldHere newHere kernel) (id : String)
    (after before : List SubnetRoute) (split : newHere = before ++ after) (current : Kernel D) (ids : List String)
    (reached : ∀ d, current d = (kernel d).applied node v6Routing (node.prevAt oldHere d) (node.at_ d before)) :
    id ∈ (after.foldl (applyNew node v6Routing oldHere) (current, ids)).2 ↔
      id ∈ ids ∨ ∃ n ∈ after, n.id = id ∧ TakenUp node v6Routing newHere n := by
  induction after generalizing before current ids with
  | nil => simp
  | cons n rest ih =>
    have member : n ∈ newHere := split ▸ List.mem_append_right _ List.mem_cons_self
    have moved : (applyNew node v6Routing oldHere (current, ids) n).1 = _ := (applyNew_spec (current, ids) n (spelt.hop member)).1
    have noted : (applyNew node v6Routing oldHere (current, ids) n).2 = _ := (applyNew_spec (current, ids) n (spelt.hop member)).2
    have accepted := slot_accepts_iff split (stands n member)
    rw [← reached] at accepted
    rw [List.foldl_cons, ← Prod.mk.eta (p := applyNew node v6Routing oldHere (current, ids) n), moved, noted,
      ih (before ++ [n]) (by rw [List.append_assoc]; exact split) _ _ (applied_one reached), List.exists_mem_cons_iff]
    split
    · rename_i accepts
      have takenUp := accepted.mp accepts
      rw [List.mem_cons]
      constructor
      · rintro ((rfl | already) | later)
        · exact .inr (.inl ⟨rfl, takenUp⟩)
        · exact .inl already
        · exact .inr (.inr later)
      · rintro (already | ⟨rfl, -⟩ | later)
        · exact .inl (.inr already)
        · exact .inl (.inl rfl)
        · exact .inr later
    · rename_i refuses
      have left : ¬TakenUp node v6Routing newHere n := fun takenUp => refuses (accepted.mpr takenUp)
      constructor
      · rintro (already | later)
        · exact .inl already
        · exact .inr (.inr later)
      · rintro (already | ⟨-, takenUp⟩ | later)
        · exact .inl already
        · exact absurd takenUp left
        · exact .inr later

theorem dropOld_iff (old : SubnetRoute) : dropOld newHere ids old = true ↔
    (∀ n ∈ newHere, n.subnetCidr ≠ old.subnetCidr) ∧ ((∀ n ∈ newHere, n.id ≠ old.id) ∨ old.id ∈ ids) := by
  unfold dropOld
  cases byCidr : newHere.find? fun n => n.subnetCidr = old.subnetCidr with
  | some found =>
    have same : found.subnetCidr = old.subnetCidr := by simpa using List.find?_some byCidr
    exact iff_of_false (by cases newHere.find? (fun n => n.id = old.id) <;> simp)
      fun dropped => dropped.1 found (List.mem_of_find?_eq_some byCidr) same
  | none =>
    have gone : ∀ n ∈ newHere, n.subnetCidr ≠ old.subnetCidr := by simpa using List.find?_eq_none.mp byCidr
    rw [and_iff_right gone]
    cases byId : newHere.find? fun n => n.id = old.id with
    | none =>
      have absent : ∀ n ∈ newHere, n.id ≠ old.id := by simpa using List.find?_eq_none.mp byId
      exact iff_of_true rfl (.inl absent)
    | some found =>
      have same : found.id = old.id := by simpa using List.find?_some byId
      have present : ¬∀ n ∈ newHere, n.id ≠ old.id := fun absent => absent found (List.mem_of_find?_eq_some byId) same
      rw [or_iff_right present]
      simp [same]

theorem dropped_kernel (routes : List SubnetRoute) (kernel : Kernel D) (d : D) : routes.foldl (dropIfStale node newHere ids) kernel d =
    (kernel d).removed node ((node.at_ d routes).filter (dropOld newHere ids)) := by
  induction routes generalizing kernel with
  | nil => rfl
  | cons old rest ih =>
    rw [List.foldl_cons, ih]
    unfold dropIfStale
    by_cases dropped : dropOld newHere ids old = true
    · rw [if_pos dropped]
      by_cases here : node.destination old.subnetCidr = d
      · subst here
        simp [RouteNode.at_, Slot.removed, dropped, remove_spec]
      · simp [RouteNode.at_, here, Function.update_of_ne (Ne.symm here)]
    · rw [if_neg dropped]
      by_cases here : node.destination old.subnetCidr = d
      · simp [RouteNode.at_, here, dropped]
      · simp [RouteNode.at_, here]

theorem applyAll_at (config : RouteConfig) (d : D) :
    applyAll node config d = Slot.empty.applied node config.ipv6SubnetRouting none (node.at_ d (node.here config)) := by
  have each : ∀ (routes : List SubnetRoute) (kernel : Kernel D), routes.foldl (fun kernel route =>
      Function.update kernel (node.destination route.subnetCidr)
        (applySubnetRoute node config.ipv6SubnetRouting route none (kernel (node.destination route.subnetCidr))).2) kernel d =
      (kernel d).applied node config.ipv6SubnetRouting none (node.at_ d routes) := by
    intro routes
    induction routes with
    | nil => exact fun _ => rfl
    | cons route rest ih =>
      intro kernel
      rw [List.foldl_cons, ih, apply_spec.1]
      by_cases here : node.destination route.subnetCidr = d
      · subst here
        simp [RouteNode.at_, Slot.applied]
      · simp [RouteNode.at_, here, Function.update_of_ne (Ne.symm here)]
  exact each _ _

omit [DecidableEq D] in
theorem applied_fresh_iff : slot.applied node v6Routing prev routes = Slot.empty.applied node v6Routing none routes ↔
    FirstStands prev slot.via (node.gateways v6Routing routes) ∧
      (slot.device = true → ∃ m ∈ routes, node.role v6Routing m = some .device) ∧
      ∀ isV6 kind, slot.rules isV6 kind = true → ∃ m ∈ routes, node.role v6Routing m = some .forwards ∧ m.isV6 = isV6 := by
  have hops : (slot.applied node v6Routing prev routes).via = (Slot.empty.applied node v6Routing none routes).via ↔
      FirstStands prev slot.via (node.gateways v6Routing routes) := by
    rw [applied_via, applied_via, ← swaps_first_iff]
    exact Iff.of_eq (congrArg _ swaps_fresh)
  have devices : (slot.applied node v6Routing prev routes).device = (Slot.empty.applied node v6Routing none routes).device ↔
      (slot.device = true → ∃ m ∈ routes, node.role v6Routing m = some .device) := by
    rw [applied_device, applied_device]
    cases held : slot.device <;> simp [Slot.empty]
  have rules : ∀ isV6 kind, (slot.applied node v6Routing prev routes).rules isV6 kind =
      (Slot.empty.applied node v6Routing none routes).rules isV6 kind ↔
      (slot.rules isV6 kind = true → ∃ m ∈ routes, node.role v6Routing m = some .forwards ∧ m.isV6 = isV6) := by
    intro isV6 kind
    rw [applied_rules, applied_rules]
    cases held : slot.rules isV6 kind <;> simp [Slot.empty]
  rw [Slot.ext_iff, hops, devices, funext_iff]
  simp only [funext_iff, rules]

omit [DecidableEq D] in
theorem removed_empty_iff : slot.removed node routes = .empty ↔
    (∀ gateway, slot.via = some gateway → ∃ o ∈ routes, node.place o = .via ∧ o.gateway = gateway) ∧
      (slot.device = true → ∃ o ∈ routes, node.place o = .device) ∧
      ∀ isV6 kind, slot.rules isV6 kind = true → ∃ o ∈ routes, node.place o = .forwards ∧ o.isV6 = isV6 := by
  have hops : (slot.removed node routes).via = none ↔
      ∀ gateway, slot.via = some gateway → ∃ o ∈ routes, node.place o = .via ∧ o.gateway = gateway := by
    rw [removed_via]
    cases held : slot.via with
    | none => simp
    | some gw =>
      simp only [ite_eq_left_iff, reduceCtorEq, imp_false, not_not, List.any_eq_true, Bool.and_eq_true, decide_eq_true_eq, Option.some.injEq]
      constructor
      · rintro ⟨o, among, place, same⟩ gateway rfl
        exact ⟨o, among, place, same⟩
      · intro each
        exact each gw rfl
  have devices : (slot.removed node routes).device = false ↔ (slot.device = true → ∃ o ∈ routes, node.place o = .device) := by
    rw [removed_device]
    cases held : slot.device <;> simp
  have rules : ∀ isV6 kind, (slot.removed node routes).rules isV6 kind = false ↔
      (slot.rules isV6 kind = true → ∃ o ∈ routes, node.place o = .forwards ∧ o.isV6 = isV6) := by
    intro isV6 kind
    rw [removed_rules]
    cases held : slot.rules isV6 kind <;> simp
  rw [Slot.ext_iff]
  simp only [Slot.empty, hops, devices, funext_iff, rules]

/-- Whether the entry of an old route is removed, once no new route names its network: no
new route has its id, or one that has is taken up. -/
def Dropped (node : RouteNode D) (v6Routing : Bool) (newHere : List SubnetRoute) (old : SubnetRoute) : Prop :=
  (∀ n ∈ newHere, n.id ≠ old.id) ∨ ∃ n ∈ newHere, n.id = old.id ∧ TakenUp node v6Routing newHere n

/-- At a network that new routes name, the first next hop comes to stand, and what else is
there is wanted still. -/
def KeptAt (node : RouteNode D) (old new : RouteConfig) (kernel : Kernel D) (d : D) : Prop :=
  FirstStands (node.prevAt (node.here old) d) (kernel d).via (node.gateways new.ipv6SubnetRouting (node.at_ d (node.here new))) ∧
    ((kernel d).device = true → ∃ m ∈ node.at_ d (node.here new), node.role new.ipv6SubnetRouting m = some .device) ∧
    ∀ isV6 kind, (kernel d).rules isV6 kind = true →
      ∃ m ∈ node.at_ d (node.here new), node.role new.ipv6SubnetRouting m = some .forwards ∧ m.isV6 = isV6

/-- At a network that none names, all that is there is an old route's that is dropped. -/
def ClearedAt (node : RouteNode D) (old new : RouteConfig) (kernel : Kernel D) (d : D) : Prop :=
  (∀ gateway, (kernel d).via = some gateway → ∃ o ∈ node.at_ d (node.here old),
      Dropped node new.ipv6SubnetRouting (node.here new) o ∧ node.place o = .via ∧ o.gateway = gateway) ∧
    ((kernel d).device = true → ∃ o ∈ node.at_ d (node.here old),
      Dropped node new.ipv6SubnetRouting (node.here new) o ∧ node.place o = .device) ∧
    ∀ isV6 kind, (kernel d).rules isV6 kind = true → ∃ o ∈ node.at_ d (node.here old),
      Dropped node new.ipv6SubnetRouting (node.here new) o ∧ node.place o = .forwards ∧ o.isV6 = isV6

structure ReceivesWell (node : RouteNode D) (old new : RouteConfig) (kernel : Kernel D) : Prop where
  kept : ∀ n ∈ node.here new, KeptAt node old new kernel (node.destination n.subnetCidr)
  cleared : ∀ d, node.at_ d (node.here new) = [] → ClearedAt node old new kernel d

theorem at_mem {r : SubnetRoute} {list : List SubnetRoute} : r ∈ node.at_ d list ↔ r ∈ list ∧ node.destination r.subnetCidr = d := by
  simp [RouteNode.at_]

theorem at_empty_iff {list : List SubnetRoute} : node.at_ d list = [] ↔ ∀ r ∈ list, node.destination r.subnetCidr ≠ d := by
  simp [RouteNode.at_]

theorem nothing_dropped (spelt : Spelt node (oldHere ++ newHere)) {n : SubnetRoute} (member : n ∈ newHere) :
    (node.at_ (node.destination n.subnetCidr) oldHere).filter (dropOld newHere ids) = [] := by
  rw [List.filter_eq_nil_iff]
  intro o among dropped
  obtain ⟨old, here⟩ := at_mem.mp among
  have same := spelt n (List.mem_append_right _ member) o (List.mem_append_left _ old) here.symm
  exact ((dropOld_iff o).mp dropped).1 n member same

theorem dropOld_idle (idle : node.at_ d newHere = []) {o : SubnetRoute} (here : node.destination o.subnetCidr = d)
    (known : o.id ∈ ids ↔ ∃ n ∈ newHere, n.id = o.id ∧ TakenUp node v6Routing newHere n) :
    dropOld newHere ids o = true ↔ Dropped node v6Routing newHere o := by
  rw [dropOld_iff, Dropped, known, and_iff_right]
  intro n member same
  rw [at_empty_iff] at idle
  exact idle n member (by rw [same, here])

omit [DecidableEq D] in
theorem filter_exists_iff {list : List SubnetRoute} {test : SubnetRoute → Bool} {wanted other : SubnetRoute → Prop}
    (same : ∀ o ∈ list, (test o = true ↔ wanted o)) : (∃ o ∈ list.filter test, other o) ↔ ∃ o ∈ list, wanted o ∧ other o := by
  simp only [List.mem_filter]
  constructor
  · rintro ⟨o, ⟨among, passes⟩, rest⟩
    exact ⟨o, among, (same o among).mp passes, rest⟩
  · rintro ⟨o, among, asked, rest⟩
    exact ⟨o, ⟨among, (same o among).mpr asked⟩, rest⟩

variable {old new : RouteConfig}

theorem received_at (spelt : Spelt node (node.here old ++ node.here new)) (d : D) : ∃ ids,
    configReceive node old new kernel d = ((kernel d).applied node new.ipv6SubnetRouting (node.prevAt (node.here old) d)
      (node.at_ d (node.here new))).removed node ((node.at_ d (node.here old)).filter (dropOld (node.here new) ids)) ∧
    (Standing node new.ipv6SubnetRouting (node.here old) (node.here new) kernel → ∀ id, id ∈ ids ↔
      ∃ n ∈ node.here new, n.id = id ∧ TakenUp node new.ipv6SubnetRouting (node.here new) n) := by
  unfold configReceive
  dsimp only
  refine ⟨((node.here new).foldl (applyNew node new.ipv6SubnetRouting (node.here old)) (kernel, [])).2, ?_, ?_⟩
  · rw [dropped_kernel, applied_kernel spelt _ (fun _ member => member)]
  · intro stands id
    refine (applied_ids spelt stands id (node.here new) [] rfl kernel [] (fun _ => rfl)).trans ?_
    simp

theorem receives_iff (spelt : Spelt node (node.here old ++ node.here new)) :
    configReceive node old new kernel = applyAll node new ↔ ReceivesWell node old new kernel := by
  have busy : ∀ n ∈ node.here new, (configReceive node old new kernel (node.destination n.subnetCidr) =
      applyAll node new (node.destination n.subnetCidr) ↔ KeptAt node old new kernel (node.destination n.subnetCidr)) := by
    intro n member
    obtain ⟨ids, reached, -⟩ := @received_at D node _ kernel old new spelt (node.destination n.subnetCidr)
    rw [reached, nothing_dropped spelt member, applyAll_at]
    exact applied_fresh_iff
  have idle : Standing node new.ipv6SubnetRouting (node.here old) (node.here new) kernel → ∀ d, node.at_ d (node.here new) = [] →
      (configReceive node old new kernel d = applyAll node new d ↔ ClearedAt node old new kernel d) := by
    intro stands d none_
    obtain ⟨ids, reached, known⟩ := @received_at D node _ kernel old new spelt d
    have dropped : ∀ o ∈ node.at_ d (node.here old), (dropOld (node.here new) ids o = true ↔
        Dropped node new.ipv6SubnetRouting (node.here new) o) := by
      intro o among
      exact dropOld_idle none_ (at_mem.mp among).2 (known stands o.id)
    rw [reached, applyAll_at, none_]
    refine removed_empty_iff.trans ?_
    simp only [filter_exists_iff dropped]
    exact Iff.rfl
  constructor
  · intro same
    have kept := fun n member => (busy n member).mp (congrFun same _)
    exact ⟨kept, fun d none_ => (idle (fun n member => (kept n member).1) d none_).mp (congrFun same d)⟩
  · intro well
    funext d
    by_cases none_ : node.at_ d (node.here new) = []
    · exact (idle (fun n member => (well.kept n member).1) d none_).mpr (well.cleared d none_)
    · obtain ⟨n, among⟩ := List.exists_mem_of_ne_nil _ none_
      obtain ⟨member, rfl⟩ := at_mem.mp among
      exact (busy n member).mpr (well.kept n member)

def RouteNode.withOwn (node : RouteNode D) (own : List String) (ipv6Available : Bool) : RouteNode D :=
  { node with own, ipv6Available }

theorem config_receive_iff (own : List String) (ipv6Available : Bool) (spelt : Spelt node (node.here old ++ node.here new)) :
    configReceive node old new (applyAll (node.withOwn own ipv6Available) old) = applyAll node new ↔
      ReceivesWell node old new (applyAll (node.withOwn own ipv6Available) old) := receives_iff spelt

def consumer : RouteNode String := ⟨"node-a", ["10.100.10.2"], true, id⟩

def behind (gateway : String) : RouteConfig where
  subnetRoutes := [⟨"route-1", "10.20.0.0/16", gateway, none, true, "", true⟩]
  ipv6SubnetRouting := false

theorem config_receive_sample : configReceive consumer (behind "10.100.10.3") (behind "10.100.10.4")
    (applyAll (consumer.withOwn ["10.100.10.2"] true) (behind "10.100.10.3")) = applyAll consumer (behind "10.100.10.4") := by
  have before : consumer.here (behind "10.100.10.3") = (behind "10.100.10.3").subnetRoutes := by decide +kernel
  have after : consumer.here (behind "10.100.10.4") = (behind "10.100.10.4").subnetRoutes := by decide +kernel
  apply (config_receive_iff ["10.100.10.2"] true _).mpr
  · constructor
    · intro n member
      rw [after] at member
      obtain rfl := List.mem_singleton.mp member
      refine ⟨?_, ?_, ?_⟩
      · have room : consumer.gateways false (consumer.at_ "10.20.0.0/16" (consumer.here (behind "10.100.10.4"))) = ["10.100.10.4"] := by
          decide +kernel
        change FirstStands _ _ (consumer.gateways false (consumer.at_ "10.20.0.0/16" (consumer.here (behind "10.100.10.4"))))
        rw [room]
        exact .inr (by decide +kernel)
      · intro device
        exact absurd device (by decide +kernel)
      · intro isV6 kind there
        cases isV6 <;> cases kind <;> exact absurd there (by decide +kernel)
    · intro d none_
      have elsewhere : "10.20.0.0/16" ≠ d := by
        rintro rfl
        exact absurd none_ (by decide +kernel)
      have bare : applyAll (consumer.withOwn ["10.100.10.2"] true) (behind "10.100.10.3") d = .empty := by
        rw [applyAll_at]
        have other : (consumer.withOwn ["10.100.10.2"] true).at_ d ((consumer.withOwn ["10.100.10.2"] true).here (behind "10.100.10.3")) = [] := by
          change RouteNode.at_ _ d (consumer.here (behind "10.100.10.3")) = []
          rw [before]
          exact at_empty_iff.mpr fun r among => List.mem_singleton.mp among ▸ elsewhere
        rw [other]
        rfl
      unfold ClearedAt
      rw [bare]
      exact ⟨fun _ held => (nomatch held), fun held => (nomatch held), fun _ _ held => (nomatch held)⟩
  · intro a _ b _ same
    exact same

/-- The gateway of a network comes to be this node, and ceases to be. -/
theorem config_receive_leaves_stale :
    configReceive consumer (behind "10.100.10.3") (behind "10.100.10.2")
        (applyAll (consumer.withOwn ["10.100.10.2"] true) (behind "10.100.10.3")) ≠ applyAll consumer (behind "10.100.10.2") ∧
      configReceive consumer (behind "10.100.10.2") (behind "10.100.10.3")
        (applyAll (consumer.withOwn ["10.100.10.2"] true) (behind "10.100.10.2")) ≠ applyAll consumer (behind "10.100.10.3") := by
  constructor
  · intro same
    have via := congrArg (fun kernel => (kernel "10.20.0.0/16").via) same
    exact absurd via (by decide +kernel)
  · intro same
    have rules := congrArg (fun kernel => (kernel "10.20.0.0/16").rules false .masquerade) same
    exact absurd rules (by decide +kernel)

end Router
