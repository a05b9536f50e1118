import WolfStack.Edge.Providers

/-! When the passes over the managed names come to rest: just if there is no tunnel among their strategies, those who share
a place want the same of it, and nothing is there that a comparison by addresses leaves and should not. -/

open scoped List

namespace Edge
open Tending Wish

section
variable (setup : Setup) (api : Api) (snapshot : ClusterSnapshot)

def cloudflareAim (id name : String) (live : LiveIps) (ttl : Nat) (proxied : Bool) : Option (Task Place Entry.content) :=
  (setup.token id "dns_cloudflare_api_token").toOption.bind fun token =>
    (api.zone "cloudflare" token (stripToZone name)).map fun zoneId =>
      ⟨.records "cloudflare" zoneId name, recordWish live (if proxied then 1 else max ttl 60) proxied⟩

def hetznerDnsAim (id name : String) (live : LiveIps) (ttl : Nat) : Option (Task Place Entry.content) :=
  (setup.token id "dns_hetzner_api_token").toOption.bind fun token =>
    (api.zone "hetzner" token (stripToZone name)).map fun zoneId =>
      ⟨.records "hetzner" zoneId (shortenToZone name (stripToZone name)), recordWish live ttl false⟩

def digitaloceanDnsAim (id name : String) (live : LiveIps) (ttl : Nat) : Option (Task Place Entry.content) :=
  (setup.token id "dns_digitalocean_token").toOption.bind fun token =>
    (api.zone "digitalocean" token (stripToZone name)).map fun _ =>
      ⟨.records "digitalocean" (stripToZone name) name, recordWish live (max ttl 30) false⟩

def cloudCreds (id : String) (kind : CloudProviderKind) : Option CloudCreds :=
  (setup.cloudProviders id).bind fun provider => if provider.kind = kind then provider.credentials.toOption else none

/-- Where the records or the targets for a name are kept, and which they should be: one for each live address. There are
none with a tunnel, nor where the strategy cannot be followed. -/
def aim (n : EdgeProxy × String) : Option (Task Place Entry.content) :=
  let live := n.1.live snapshot
  match n.1.edge with
  | .local_ => none
  | .dnsRoundRobin id ttl => (setup.dnsProviders id).bind fun provider =>
    if provider.plugin = "cloudflare" then cloudflareAim setup api id n.2 live ttl false
    else if provider.plugin = "hetzner" then hetznerDnsAim setup api id n.2 live ttl
    else if provider.plugin = "digitalocean" then digitaloceanDnsAim setup api id n.2 live ttl
    else none
  | .cloudflareDns id ttl => (setup.dnsProviders id).bind fun provider =>
    if provider.plugin = "cloudflare" then cloudflareAim setup api id n.2 live ttl true else none
  | .hetznerLb id lbName => (cloudCreds setup id .hetzner).map fun creds =>
    ⟨.hetznerLb (api.project creds.apiToken) lbName, targetWish live⟩
  | .digitalOceanLb id lbName => (cloudCreds setup id .digitalOcean).bind fun creds =>
    if live.val.all fun ip => (dropletOf (api.droplets creds.apiToken) ip).isSome then
      some ⟨.digitalOceanLb (api.project creds.apiToken) lbName, dropletWish (api.droplets creds.apiToken) live⟩
    else none
  | .cloudflareTunnel .. => none

/-- A name has a record for each live address, or its CNAME and a rule of its own in the tunnel. -/
def Reached (w : World) (n : EdgeProxy × String) : Prop :=
  match n.1.edge with
  | .cloudflareTunnel id dnsId tunnelName => ∃ creds dnsToken zoneId tunnel, cloudCreds setup id .cloudflare = some creds ∧
      setup.token dnsId "dns_cloudflare_api_token" = .ok dnsToken ∧ api.zone "cloudflare" dnsToken (stripToZone n.2) = some zoneId ∧
      w.tunnels (creds.accountId, tunnelName) = some tunnel ∧ w.cnames (zoneId, n.2) = some (tunnel ++ ".cfargotunnel.com") ∧
      ⟨some n.2, "http://localhost:80"⟩ ∈ w.ingress tunnel
  | _ => ∃ task, aim setup api snapshot n = some task ∧ w.entries task.place ~ task.wish.goal

/-- After a pass the managed names have what they should, and another pass changes and reports nothing. -/
structure Settles (proxies : List EdgeProxy) (w : World) : Prop where
  reached : ∀ n ∈ managedNames proxies, Reached setup api snapshot (pass setup api snapshot proxies w).2 n
  rests : (pass setup api snapshot proxies (pass setup api snapshot proxies w).2).2 = (pass setup api snapshot proxies w).2
  quiet : ∀ r ∈ (pass setup api snapshot proxies (pass setup api snapshot proxies w).2).1, r.errors = [] ∧ r.added = 0 ∧ r.removed = 0

/-- No tunnel is managed, the strategies can be followed, those who share a place want the same of it, and what is there
for live addresses is there once and as it should be. -/
structure Unhindered (proxies : List EdgeProxy) (w : World) : Prop where
  aimed : ∀ n ∈ managedNames proxies, aim setup api snapshot n ≠ none
  agree : Agree ((managedNames proxies).filterMap (aim setup api snapshot))
  ready : ∀ t ∈ (managedNames proxies).filterMap (aim setup api snapshot), t.wish.Ready (w.entries t.place)

end

/-! ### What reconciling a name does -/

section
variable {setup : Setup} {api : Api} {snapshot : ClusterSnapshot}

/-- The place is visited, which is not reported where the goal is reached. -/
structure Visits (task : Task Place Entry.content) (w : World) (result : Except String ProxyReconcileReport × World) : Prop where
  world : result.2 = w.keep task.place (task.wish.tend (w.entries task.place))
  quiet : (w.kept task.place).isSome = true → w.entries task.place ~ task.wish.goal →
    ∃ r, result.1 = .ok r ∧ r.errors = [] ∧ r.added = 0 ∧ r.removed = 0

def Fails (result : Except String ProxyReconcileReport × World) : Prop := ∀ r, result.1 = .ok r → r.errors ≠ []

def Does (aim : Option (Task Place Entry.content)) (f : World → Except String ProxyReconcileReport × World) : Prop :=
  match aim with
  | some task => ∀ w, Visits task w (f w)
  | none => ∀ w, Fails (f w)

theorem fails_error (e : String) (w : World) : Fails (.error e, w) := fun _ same => nomatch same

theorem reconcileKept_visits (place : Place) (wish : Wish Entry.content) (live : LiveIps) (w : World) :
    Visits ⟨place, wish⟩ w (reconcileKept place wish live w) where
  world := rfl
  quiet _ reached := ⟨_, rfl, rfl, by rw [none_missing reached]; rfl, by rw [none_stale reached]; rfl⟩

section
variable {id name : String} {live : LiveIps} {ttl : Nat}

theorem records_does {token : Except String String} (zone : String → Option String) (place : String → Place) (wish : Wish Entry.content)
    (unseen : String) : Does (token.toOption.bind fun token => (zone token).map fun zoneId => ⟨place zoneId, wish⟩) fun w =>
      match token with
      | .error e => (.error e, w)
      | .ok token => match zone token with
        | none => (.error unseen, w)
        | some zoneId => reconcileKept (place zoneId) wish live w := by
  cases token with
  | error e => exact fails_error e
  | ok token =>
    dsimp only [Except.toOption, Option.bind_some]
    cases zone token with
    | none => exact fails_error _
    | some zoneId => exact reconcileKept_visits _ _ _

theorem reconcileCloudflare_does (proxied : Bool) : Does (cloudflareAim setup api id name live ttl proxied) fun w =>
    match setup.token id "dns_cloudflare_api_token" with
    | .error e => (.error e, w)
    | .ok token => reconcileCloudflare api token name live ttl proxied w :=
  records_does (fun token => api.zone "cloudflare" token (stripToZone name)) ..

theorem reconcileHetznerDns_does : Does (hetznerDnsAim setup api id name live ttl) fun w =>
    match setup.token id "dns_hetzner_api_token" with
    | .error e => (.error e, w)
    | .ok token => reconcileHetznerDns api token name live ttl w :=
  records_does (fun token => api.zone "hetzner" token (stripToZone name)) ..

theorem reconcileDigitaloceanDns_does : Does (digitaloceanDnsAim setup api id name live ttl) fun w =>
    match setup.token id "dns_digitalocean_token" with
    | .error e => (.error e, w)
    | .ok token => reconcileDigitaloceanDns api token name live ttl w :=
  records_does (fun token => api.zone "digitalocean" token (stripToZone name)) (fun _ => .records "digitalocean" (stripToZone name) name) ..

theorem reconcileHetznerLb_does {lbName : String} :
    Does ((cloudCreds setup id .hetzner).map fun creds => ⟨.hetznerLb (api.project creds.apiToken) lbName, targetWish live⟩)
      (reconcileHetznerLb setup api id lbName name live) := by
  unfold reconcileHetznerLb cloudCreds
  cases setup.cloudProviders id with
  | none => exact fails_error _
  | some provider =>
    dsimp only [Option.bind_some]
    by_cases kind : provider.kind = .hetzner
    · simp only [kind, ne_eq, not_true_eq_false, if_false, if_true]
      cases provider.credentials with
      | error e => exact fails_error e
      | ok creds =>
        intro w
        dsimp only [Except.toOption]
        cases kept : w.kept (.hetznerLb (api.project creds.apiToken) lbName) with
        | none =>
          refine ⟨?_, fun there => by rw [kept] at there; cases there⟩
          dsimp only
          rw [World.entries, kept, Option.getD_none, tend_nil]
        | some existing => exact reconcileKept_visits _ _ _ _
    · simp only [kind, ne_eq, not_false_eq_true, if_true, if_false]
      exact fails_error _

theorem reconcileDigitaloceanLb_does {lbName : String} :
    Does ((cloudCreds setup id .digitalOcean).bind fun creds =>
        if live.val.all fun ip => (dropletOf (api.droplets creds.apiToken) ip).isSome then
          some ⟨.digitalOceanLb (api.project creds.apiToken) lbName, dropletWish (api.droplets creds.apiToken) live⟩
        else none)
      (reconcileDigitaloceanLb setup api id lbName live) := by
  unfold reconcileDigitaloceanLb cloudCreds
  cases setup.cloudProviders id with
  | none => exact fails_error _
  | some provider =>
    dsimp only [Option.bind_some]
    by_cases kind : provider.kind = .digitalOcean
    · simp only [kind, ne_eq, not_true_eq_false, if_false, if_true]
      cases provider.credentials with
      | error e => exact fails_error e
      | ok creds =>
        dsimp only [Except.toOption, Option.bind_some]
        split
        · rename_i found
          have resolved : (live.val.filter fun ip => dropletOf (api.droplets creds.apiToken) ip = none) = [] :=
            List.filter_eq_nil_iff.mpr fun ip member none_ => by
              have some_ := List.all_eq_true.mp found ip member
              rw [of_decide_eq_true none_] at some_
              cases some_
          intro w
          dsimp only
          rw [resolved, List.map_nil]
          cases kept : w.kept (.digitalOceanLb (api.project creds.apiToken) lbName) with
          | none =>
            refine ⟨?_, fun there => by rw [kept] at there; cases there⟩
            dsimp only
            rw [World.entries, kept, Option.getD_none, tend_nil]
          | some existing =>
            have listed : w.entries (.digitalOceanLb (api.project creds.apiToken) lbName) = existing := by
              rw [World.entries, kept, Option.getD_some]
            refine ⟨by dsimp only; rw [listed], fun _ reached => ?_⟩
            dsimp only at reached
            rw [listed] at reached
            refine ⟨_, rfl, rfl, ?_, by dsimp only; rw [none_stale reached]; rfl⟩
            dsimp only
            rw [List.length_eq_zero_iff, List.filter_eq_nil_iff]
            intro droplet member
            rw [decide_eq_true_eq, not_not, (reached.map Entry.content).mem_iff, goal_keys]
            exact List.mem_map.mpr ⟨droplet, List.mem_dedup.mpr member, rfl⟩
        · rename_i lost
          have unresolved : (live.val.filter fun ip => dropletOf (api.droplets creds.apiToken) ip = none) ≠ [] := by
            intro resolved
            refine lost (List.all_eq_true.mpr fun ip member => ?_)
            have some_ := List.filter_eq_nil_iff.mp resolved ip member
            rw [decide_eq_true_eq] at some_
            exact Option.isSome_iff_ne_none.mpr some_
          intro w r done
          dsimp only at done
          cases kept : w.kept (.digitalOceanLb (api.project creds.apiToken) lbName) with
          | none =>
            rw [kept] at done
            cases done
            exact List.cons_ne_nil _ _
          | some existing =>
            rw [kept] at done
            cases done
            exact fun empty => unresolved (List.map_eq_nil_iff.mp empty)
    · simp only [kind, ne_eq, not_false_eq_true, if_true, if_false]
      exact fails_error _

theorem reconcileCloudflareTunnel_fails {dnsId tunnelName : String} (w : World) :
    Fails (reconcileCloudflareTunnel setup api id dnsId tunnelName name w) := by
  intro r done
  unfold reconcileCloudflareTunnel at done
  split at done
  · cases done
  · split at done
    · cases done
    · split at done
      · cases done
      · dsimp only at done
        split at done
        · cases done
        · split at done
          · cases done
          · split at done
            · cases done
            · cases done
              exact List.cons_ne_nil _ _

end

theorem visitName_does (n : EdgeProxy × String) : Does (aim setup api snapshot n) (visitName setup api snapshot n) := by
  obtain ⟨p, name⟩ := n
  unfold aim visitName reconcileOne
  dsimp only
  cases p.edge with
  | local_ => exact fails_error _
  | dnsRoundRobin id ttl =>
    dsimp only
    cases setup.dnsProviders id with
    | none => exact fails_error _
    | some provider =>
      dsimp only [Option.bind_some]
      by_cases cloudflare : provider.plugin = "cloudflare"
      · simp only [if_pos cloudflare]
        exact reconcileCloudflare_does false
      · simp only [if_neg cloudflare]
        by_cases hetzner : provider.plugin = "hetzner"
        · simp only [if_pos hetzner]
          exact reconcileHetznerDns_does
        · simp only [if_neg hetzner]
          by_cases digitalocean : provider.plugin = "digitalocean"
          · simp only [if_pos digitalocean]
            exact reconcileDigitaloceanDns_does
          · simp only [if_neg digitalocean]
            exact fails_error _
  | cloudflareDns id ttl =>
    dsimp only
    cases setup.dnsProviders id with
    | none => exact fails_error _
    | some provider =>
      dsimp only [Option.bind_some]
      by_cases cloudflare : provider.plugin = "cloudflare"
      · simp only [cloudflare, ne_eq, not_true_eq_false, if_false, if_true]
        exact reconcileCloudflare_does true
      · simp only [cloudflare, ne_eq, not_false_eq_true, if_true, if_false]
        exact fails_error _
  | hetznerLb id lbName => exact reconcileHetznerLb_does
  | digitalOceanLb id lbName => exact reconcileDigitaloceanLb_does
  | cloudflareTunnel id dnsId tunnelName => exact reconcileCloudflareTunnel_fails

variable {names : List (EdgeProxy × String)} {w : World} {task : Task Place Entry.content}

theorem keep_kept (place other : Place) (entries : List Entry) :
    (w.keep place entries).kept other = if other = place then some entries else w.kept other := Function.update_apply ..

theorem keep_entries (place other : Place) (entries : List Entry) :
    (w.keep place entries).entries other = if other = place then entries else w.entries other := by
  rw [World.entries, keep_kept]
  split <;> rfl

theorem keep_same {place : Place} (there : (w.kept place).isSome = true) : w.keep place (w.entries place) = w := by
  obtain ⟨entries, kept⟩ := Option.isSome_iff_exists.mp there
  have same : Function.update w.kept place (some entries) = w.kept := Function.update_eq_self_iff.mpr kept.symm
  rw [World.entries, kept, Option.getD_some, World.keep, same]

theorem Visits.entries {result : Except String ProxyReconcileReport × World} (visits : Visits task w result) :
    result.2.entries = visit w.entries task := by
  rw [visits.world]
  funext place
  rw [keep_entries, visit, Function.update_apply]

theorem passOver_cons (n : EdgeProxy × String) (rest : List (EdgeProxy × String)) (w : World) :
    passOver setup api snapshot (n :: rest) w = (report n (visitName setup api snapshot n w).1 ::
      (passOver setup api snapshot rest (visitName setup api snapshot n w).2).1,
        (passOver setup api snapshot rest (visitName setup api snapshot n w).2).2) := rfl

theorem visits_of_aim {n : EdgeProxy × String} (found : aim setup api snapshot n = some task) (w : World) :
    Visits task w (visitName setup api snapshot n w) := by
  have does := @visitName_does setup api snapshot n
  rw [found] at does
  exact does w

theorem passOver_noisy {n : EdgeProxy × String} (member : n ∈ names) (lost : aim setup api snapshot n = none) :
    ∃ r ∈ (passOver setup api snapshot names w).1, r.errors ≠ [] := by
  induction names generalizing w with
  | nil => exact absurd member List.not_mem_nil
  | cons first rest ih =>
    rw [passOver_cons]
    rcases List.mem_cons.mp member with rfl | later
    · have does := @visitName_does setup api snapshot n
      rw [lost] at does
      have fails := does w
      refine ⟨_, List.mem_cons_self, ?_⟩
      cases result : (visitName setup api snapshot n w).1 with
      | error e => exact List.cons_ne_nil _ _
      | ok r => exact fails r result
    · obtain ⟨r, among, noisy⟩ := @ih (visitName setup api snapshot first w).2 later
      exact ⟨r, List.mem_cons_of_mem _ among, noisy⟩

section
variable (aimed : ∀ n ∈ names, aim setup api snapshot n ≠ none)
include aimed

theorem passOver_entries : (passOver setup api snapshot names w).2.entries = run w.entries (names.filterMap (aim setup api snapshot)) := by
  induction names generalizing w with
  | nil => rfl
  | cons n rest ih =>
    obtain ⟨task, found⟩ := Option.ne_none_iff_exists'.mp (aimed n List.mem_cons_self)
    rw [passOver_cons, List.filterMap_cons_some found, run, List.foldl_cons, ← run, ← (visits_of_aim found w).entries]
    exact ih fun n member => aimed n (List.mem_cons_of_mem _ member)

theorem passOver_there : (∀ place, (w.kept place).isSome = true → ((passOver setup api snapshot names w).2.kept place).isSome = true) ∧
    ∀ t ∈ names.filterMap (aim setup api snapshot), ((passOver setup api snapshot names w).2.kept t.place).isSome = true := by
  induction names generalizing w with
  | nil => exact ⟨fun _ there => there, fun _ member => absurd member List.not_mem_nil⟩
  | cons n rest ih =>
    obtain ⟨task, found⟩ := Option.ne_none_iff_exists'.mp (aimed n List.mem_cons_self)
    have step := (visits_of_aim found w).world
    obtain ⟨stays, rest_⟩ := @ih (visitName setup api snapshot n w).2 fun n member => aimed n (List.mem_cons_of_mem _ member)
    have here : ((visitName setup api snapshot n w).2.kept task.place).isSome = true := by
      rw [step, keep_kept, if_pos rfl]
      rfl
    rw [passOver_cons, List.filterMap_cons_some found]
    refine ⟨fun place there => stays place ?_, fun t member => ?_⟩
    · rw [step, keep_kept]
      split
      · rfl
      · exact there
    · rcases List.mem_cons.mp member with rfl | later
      · exact stays _ here
      · exact rest_ t later

theorem passOver_settled (there : ∀ t ∈ names.filterMap (aim setup api snapshot), (w.kept t.place).isSome = true ∧
    w.entries t.place ~ t.wish.goal) :
    (passOver setup api snapshot names w).2 = w ∧
      ∀ r ∈ (passOver setup api snapshot names w).1, r.errors = [] ∧ r.added = 0 ∧ r.removed = 0 := by
  induction names with
  | nil => exact ⟨rfl, fun _ member => absurd member List.not_mem_nil⟩
  | cons n rest ih =>
    obtain ⟨task, found⟩ := Option.ne_none_iff_exists'.mp (aimed n List.mem_cons_self)
    rw [List.filterMap_cons_some found] at there
    obtain ⟨kept, reached⟩ := there task List.mem_cons_self
    have visits := visits_of_aim found w
    have same : (visitName setup api snapshot n w).2 = w := by
      rw [visits.world, tend_settled reached, keep_same kept]
    obtain ⟨world, quiet⟩ := ih (fun n member => aimed n (List.mem_cons_of_mem _ member)) fun t member => there t (List.mem_cons_of_mem _ member)
    rw [passOver_cons, same]
    refine ⟨world, fun r member => ?_⟩
    rcases List.mem_cons.mp member with rfl | later
    · obtain ⟨r, done, clean⟩ := visits.quiet kept reached
      rw [done]
      exact clean
    · exact quiet r later

end

theorem reached_of_aim {n : EdgeProxy × String} (found : aim setup api snapshot n = some task) :
    Reached setup api snapshot w n ↔ w.entries task.place ~ task.wish.goal := by
  have plain : Reached setup api snapshot w n ↔ ∃ task, aim setup api snapshot n = some task ∧ w.entries task.place ~ task.wish.goal := by
    unfold Reached
    split
    · rename_i edge
      rw [aim, edge] at found
      cases found
    · exact Iff.rfl
  rw [plain]
  constructor
  · rintro ⟨_, same, reached⟩
    cases found.symm.trans same
    exact reached
  · exact fun reached => ⟨task, found, reached⟩

theorem unhindered_of_settles {proxies : List EdgeProxy} (settles : Settles setup api snapshot proxies w) :
    Unhindered setup api snapshot proxies w := by
  have aimed : ∀ n ∈ managedNames proxies, aim setup api snapshot n ≠ none := by
    intro n member lost
    obtain ⟨r, among, noisy⟩ := @passOver_noisy setup api snapshot _ (pass setup api snapshot proxies w).2 n member lost
    exact noisy (settles.quiet r among).1
  have reached : ∀ t ∈ (managedNames proxies).filterMap (aim setup api snapshot),
      run w.entries ((managedNames proxies).filterMap (aim setup api snapshot)) t.place ~ t.wish.goal := by
    intro t member
    obtain ⟨n, named, found⟩ := List.mem_filterMap.mp member
    have there := (reached_of_aim found).mp (settles.reached n named)
    rwa [pass, passOver_entries aimed] at there
  obtain ⟨ready, agree⟩ := run_reaches_iff.mp reached
  exact ⟨aimed, agree, ready⟩

/-- A pass brings the names to what they should have, and the next one has nothing to do, just if nothing is in the way. -/
theorem settles_iff (setup : Setup) (api : Api) (snapshot : ClusterSnapshot) (proxies : List EdgeProxy) (w : World) :
    Settles setup api snapshot proxies w ↔ Unhindered setup api snapshot proxies w := by
  refine ⟨unhindered_of_settles, fun free => ?_⟩
  have reached : ∀ t ∈ (managedNames proxies).filterMap (aim setup api snapshot),
      (pass setup api snapshot proxies w).2.entries t.place ~ t.wish.goal := by
    rw [pass, passOver_entries free.aimed]
    exact run_reaches free.agree free.ready
  have there := (@passOver_there setup api snapshot _ w free.aimed).2
  obtain ⟨rests, quiet⟩ := passOver_settled free.aimed fun t member => ⟨there t member, reached t member⟩
  refine ⟨fun n member => ?_, rests, quiet⟩
  obtain ⟨task, found⟩ := Option.ne_none_iff_exists'.mp (free.aimed n member)
  exact (reached_of_aim found).mpr (reached task (List.mem_filterMap.mpr ⟨n, member, found⟩))

end

theorem managedNames_calls (snapshot : ClusterSnapshot) (proxies : List EdgeProxy) :
    ((managedNames proxies).map fun n => (⟨n.1.id, n.2, (n.1.live snapshot).val⟩ : Call)) =
      runPass (proxies.map EdgeProxy.plain) snapshot true := by
  rw [runPass, if_neg (by decide), managedNames, List.filter_map, List.flatMap_map, List.map_flatMap]
  apply List.flatMap_congr
  intro p _
  rw [List.map_map]
  rfl

def switched : EdgeProxy := ⟨"shop", ["shop.example.com"], ["n1"], .cloudflareDns "cf" 60⟩

def oneNode : ClusterSnapshot := ⟨[("n1", "203.0.113.7", true)], "n1"⟩

def oneToken : Setup := ⟨fun _ => some ⟨"Cloudflare", "cloudflare"⟩, fun _ _ => .ok "token", fun _ => none⟩

def oneZone : Api := ⟨fun _ _ _ => some "zone", fun _ => "", fun _ => [], fun _ => ("", ""), fun _ _ => ("", ""), "record exists"⟩

def unflagged : World := ⟨fun _ => some [⟨.ip "203.0.113.7", some 60, false⟩], fun _ => none, fun _ => [], fun _ => none⟩

/-- All calls succeed, but the record stays as it is. -/
theorem flag_never_set : ((pass oneToken oneZone oneNode [switched] unflagged).1.map ProxyReconcileReport.errors) = [[]] ∧
    ¬Settles oneToken oneZone oneNode [switched] unflagged := by
  refine ⟨by rfl, fun settles => ?_⟩
  have live : (switched.live oneNode).val = ["203.0.113.7"] := by
    simp [EdgeProxy.live, liveIpsFor, EdgeProxy.plain, switched, oneNode, ClusterSnapshot.get]
  have free := unhindered_of_settles settles
  have ready := free.ready ⟨.records "cloudflare" "zone" "shop.example.com", recordWish (switched.live oneNode) 1 true⟩ (List.mem_singleton_self _)
  have wished : Content.ip "203.0.113.7" ∈ (recordWish (switched.live oneNode) 1 true).keys :=
    List.mem_map.mpr ⟨_, by rw [live]; exact List.mem_singleton_self _, rfl⟩
  have fits := ready.fits ⟨.ip "203.0.113.7", some 60, false⟩ (List.mem_singleton_self _) wished
  exact absurd (congrArg Entry.proxied fits) Bool.false_ne_true

end Edge
