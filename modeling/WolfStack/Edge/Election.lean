import WolfStack.Edge.Reconcile
import Mathlib.Data.List.Perm.Basic
import Mathlib.Data.Set.Finite.Lemmas

/-! Who drives the records of the managed proxies. Every node decides by its own list, which
may hold a node under a key of that list only, hold it twice, and hold the nodes of other
clusters. Does every cluster have one driver? -/

namespace Edge
open Cluster

/-- The record that a listing has last of an id: it is the one that stays. -/
def lastListed (listed : List Node) (id : String) : Option Node :=
  listed.reverse.find? fun n => n.nodeType = "wolfstack" ∧ listedId n = id

theorem lastListed_concat (listed : List Node) (n : Node) (id : String) :
    lastListed (listed ++ [n]) id = if n.nodeType = "wolfstack" ∧ listedId n = id then some n else lastListed listed id := by
  unfold lastListed
  rw [List.reverse_append, List.reverse_singleton, List.singleton_append, List.find?_cons]
  by_cases here : n.nodeType = "wolfstack" ∧ listedId n = id
  · rw [if_pos here, decide_eq_true here]
  · rw [if_neg here, decide_eq_false here]

theorem mem_collect {nodes : List (String × String × Bool)} {n : Node} {id : String} {entry : String × Bool} :
    (id, entry) ∈ collect nodes n ↔ if n.nodeType = "wolfstack" ∧ listedId n = id then entry = (n.publicIp.getD "", n.online)
      else (id, entry) ∈ nodes := by
  unfold collect
  by_cases wolf : n.nodeType = "wolfstack"
  · by_cases here : listedId n = id
    · simp [insert, wolf, here]
    · have apart : id ≠ listedId n := fun same => here same.symm
      simp [insert, wolf, here, apart]
  · simp [wolf]

theorem mem_collected (listed : List Node) (id ip : String) (online : Bool) :
    (id, ip, online) ∈ listed.foldl collect [] ↔
      ∃ n, lastListed listed id = some n ∧ ip = n.publicIp.getD "" ∧ online = n.online := by
  induction listed using List.reverseRecOn with
  | nil => simp [lastListed]
  | append_singleton listed n ih =>
    rw [List.foldl_concat, lastListed_concat, mem_collect]
    split
    · simp
    · exact ih

variable {id : String}

theorem lastListed_mem {listed : List Node} {n : Node} (last : lastListed listed id = some n) :
    n ∈ listed ∧ n.nodeType = "wolfstack" ∧ listedId n = id := by
  have found := List.find?_some last
  have member := List.mem_of_find?_eq_some last
  exact ⟨List.mem_reverse.mp member, by simpa using found⟩

theorem lastListed_isSome {listed : List Node} {n : Node} (member : n ∈ listed) (wolf : n.nodeType = "wolfstack")
    (named : listedId n = id) : ∃ last, lastListed listed id = some last := by
  apply Option.isSome_iff_exists.mp
  apply List.find?_isSome.mpr
  exact ⟨n, List.mem_reverse.mpr member, by simp [wolf, named]⟩

theorem mem_aliveIds {self : String} {listed : List Node} {id : String} :
    id ∈ (fromClusterState self listed).aliveIds ↔ ∃ n, lastListed listed id = some n ∧ (n.online = true ∨ id = self) := by
  unfold ClusterSnapshot.aliveIds fromClusterState
  simp only [List.mem_filterMap, List.mem_map]
  constructor
  · rintro ⟨_, ⟨⟨key, ip, online⟩, member, rfl⟩, shown⟩
    obtain ⟨n, last, -, same⟩ := (mem_collected listed key ip online).mp member
    by_cases here : key = self
    · simp only [here, if_true, Option.some.injEq] at shown
      exact ⟨n, shown ▸ here ▸ last, .inr shown.symm⟩
    · simp only [here, if_false] at shown
      split at shown
      · rename_i alive
        rw [Option.some.injEq] at shown
        exact ⟨n, shown ▸ last, .inl (same ▸ alive)⟩
      · exact absurd shown (by simp)
  · rintro ⟨n, last, alive⟩
    refine ⟨_, ⟨(id, n.publicIp.getD "", n.online), (mem_collected ..).mpr ⟨n, last, rfl, rfl⟩, rfl⟩, ?_⟩
    by_cases here : id = self
    · simp [here]
    · simp [here, alive.resolve_right here]

structure Seen where
  me : Me
  now : Nat
  nodes : NodeMap

/-- `get_self_cluster_name`. -/
def Seen.clusterName (v : Seen) : String := ((v.nodes.get v.me.id).bind Node.clusterName).getD "WolfStack"

def sameCluster (v w : Seen) : Bool := clusterEq (some v.clusterName) (some w.clusterName)

def Seen.listed (v : Seen) : List Node := allNodes v.me v.now v.nodes

/-- The WolfStack nodes of the list. -/
def Seen.peers (v : Seen) : List Node := v.listed.filter fun n => n.nodeType = "wolfstack"

def Seen.Leads (v : Seen) (order : List Node) : Prop := amILeader (fromClusterState v.me.id order) = true

def nodeIdPrefix : String := "ws-"

def localKeyPrefix : String := "node-"

/-- A key that `add_server` has made up. -/
def isLocalKey (key : String) : Bool := localKeyPrefix.toList <+: key.toList

/-- Nodes that all see each other online, and no other node. `host` tells which node a record
is of; a node does not know that where the record is kept under a key of its own. -/
structure Fleet where
  views : List Seen
  host : Seen → Node → String
  apart : (views.map fun v => v.me.id).Nodup
  named : ∀ v ∈ views, ∀ n ∈ v.peers, nodeIdPrefix.toList <+: (host v n).toList
  own : ∀ v ∈ views, ∃ n, v.nodes.get v.me.id = some n ∧ n.isSelf = true ∧ n.online = true ∧ n.nodeType = "wolfstack" ∧
    n.selfId = none ∧ host v n = v.me.id
  kept : ∀ v ∈ views, ∀ n ∈ v.peers, listedId n = host v n ∨ n.selfId = none ∧ isLocalKey n.id = true
  agree : ∀ v ∈ views, ∀ id, (∃ n ∈ v.peers, n.online = true ∧ host v n = id) ↔ ∃ w ∈ views, w.me.id = id

/-- In every cluster one node takes itself for the leader, whatever the orders of the lists. -/
def Fleet.OneDriver (fleet : Fleet) : Prop :=
  ∀ order : Seen → List Node, (∀ v ∈ fleet.views, (order v).Perm v.listed) →
    ∀ v ∈ fleet.views, ∃ w, (w ∈ fleet.views ∧ sameCluster v w = true ∧ w.Leads (order w)) ∧
      ∀ other, other ∈ fleet.views ∧ sameCluster v other = true ∧ other.Leads (order other) → other = w

def Seen.Knows (v : Seen) : Prop := ∀ n ∈ v.peers, n.online = true → isLocalKey (listedId n) = false

def Seen.Stale (v : Seen) (id : String) : Prop := ∃ n ∈ v.peers, listedId n = id ∧ n.online = false

structure Fleet.Settled (fleet : Fleet) : Prop where
  oneCluster : ∀ v ∈ fleet.views, ∀ w ∈ fleet.views, sameCluster v w = true
  firstKnows : ∀ v ∈ fleet.views, (∀ w ∈ fleet.views, v.me.id ≤ w.me.id) → v.Knows
  othersYield : ∀ v ∈ fleet.views, ∀ w ∈ fleet.views, w.me.id < v.me.id → v.Knows →
    ∃ u ∈ fleet.views, u.me.id < v.me.id ∧ ¬v.Stale u.me.id

theorem lastListed_append (front back : List Node) : lastListed (front ++ back) id = (lastListed back id).or (lastListed front id) := by
  unfold lastListed
  rw [List.reverse_append, List.find?_append]

/-- The online records of a list, and the others, in one order or the other. -/
def split (listed : List Node) (last : Bool) : List Node :=
  listed.filter (fun n => n.online = !last) ++ listed.filter fun n => n.online = last

theorem split_perm (listed : List Node) (last : Bool) : (split listed last).Perm listed := by
  have halves := List.filter_append_perm (fun n : Node => decide (n.online = !last)) listed
  have same : listed.filter (fun n => !decide (n.online = !last)) = listed.filter fun n => n.online = last := by
    apply List.filter_congr
    intro n _
    cases n.online <;> cases last <;> rfl
  rw [same] at halves
  exact halves

theorem split_last {listed : List Node} {n m : Node} {last : Bool} (member : n ∈ listed) (wolf : n.nodeType = "wolfstack")
    (named : listedId n = id) (online : n.online = last) (found : lastListed (split listed last) id = some m) : m.online = last := by
  have here : n ∈ listed.filter fun n => n.online = last := List.mem_filter.mpr ⟨member, by simpa using online⟩
  obtain ⟨k, shown⟩ := lastListed_isSome here wolf named
  unfold split at found
  rw [lastListed_append, shown, Option.some_or, Option.some.injEq] at found
  have kept := (List.mem_filter.mp (lastListed_mem shown).1).2
  rw [← found]
  simpa using kept

/-! ### Who leads -/

theorem local_lt {key name : String} (made : isLocalKey key = true) (named : nodeIdPrefix.toList <+: name.toList) : key < name := by
  have made : localKeyPrefix.toList <+: key.toList := of_decide_eq_true made
  obtain ⟨tail, key_eq⟩ := made
  obtain ⟨rest, name_eq⟩ := named
  rw [String.lt_iff_toList_lt, ← key_eq, ← name_eq]
  exact List.Lex.rel (by decide)

theorem mem_peers {v : Seen} {order : List Node} {n : Node} (perm : order.Perm v.listed) :
    n ∈ v.peers ↔ n ∈ order ∧ n.nodeType = "wolfstack" := by
  unfold Seen.peers
  rw [List.mem_filter, perm.mem_iff, decide_eq_true_iff]

theorem last_peer {v : Seen} {order : List Node} {n : Node} (perm : order.Perm v.listed) (last : lastListed order id = some n) :
    n ∈ v.peers ∧ listedId n = id := by
  obtain ⟨member, wolf, named⟩ := lastListed_mem last
  exact ⟨(mem_peers perm).mpr ⟨member, wolf⟩, named⟩

theorem peer_last {v : Seen} {order : List Node} {n : Node} (perm : order.Perm v.listed) (peer : n ∈ v.peers) :
    ∃ m, lastListed order (listedId n) = some m := by
  obtain ⟨member, wolf⟩ := (mem_peers perm).mp peer
  exact lastListed_isSome member wolf rfl

theorem peer_eq {v : Seen} {n m : Node} (left : n ∈ v.peers) (right : m ∈ v.peers) (same : n.id = m.id) : n = m := by
  have ids : (v.peers.map Node.id).Nodup := by
    have listed : v.listed.map Node.id = (v.nodes.values.filter fun n =>
        !isSelfAlias n v.me.id (((v.nodes.get v.me.id).map Node.hostname).getD "") v.me.port).map Node.id := by
      unfold Seen.listed allNodes
      rw [List.map_map]
      apply List.map_congr_left
      intro n _
      simp only [Function.comp_apply]
      split <;> rfl
    have distinct := NodeMap.nodup_filter v.nodes.distinct fun n =>
      !isSelfAlias n v.me.id (((v.nodes.get v.me.id).map Node.hostname).getD "") v.me.port
    rw [← listed] at distinct
    exact NodeMap.nodup_filter distinct _
  exact List.inj_on_of_nodup_map ids left right same

namespace Fleet
variable {fleet : Fleet} {v w : Seen} {order : List Node}

theorem own_peer (here : v ∈ fleet.views) :
    ∃ n ∈ v.peers, n.online = true ∧ listedId n = v.me.id ∧ fleet.host v n = v.me.id := by
  obtain ⟨n, found, isSelf, online, wolf, unnamed, host⟩ := fleet.own v here
  have named := NodeMap.get_id found
  refine ⟨n, ?_, online, ?_, host⟩
  · unfold Seen.peers Seen.listed allNodes
    refine List.mem_filter.mpr ⟨List.mem_map.mpr ⟨n, ?_, by rw [if_pos isSelf]⟩, by simpa using wolf⟩
    exact List.mem_filter.mpr ⟨NodeMap.get_mem found, by simp [isSelfAlias, isSelf]⟩
  · rw [listedId, unnamed, Option.getD_none, named]

theorem id_named (here : v ∈ fleet.views) : nodeIdPrefix.toList <+: v.me.id.toList := by
  obtain ⟨n, peer, -, -, host⟩ := own_peer here
  rw [← host]
  exact fleet.named v here n peer

theorem leads_iff (here : v ∈ fleet.views) (perm : order.Perm v.listed) :
    v.Leads order ↔ ∀ id n, lastListed order id = some n → n.online = true → v.me.id ≤ id := by
  obtain ⟨own, peer, -, named, -⟩ := own_peer here
  obtain ⟨last, found⟩ := peer_last perm peer
  rw [named] at found
  unfold Seen.Leads
  rw [amILeader_iff (mem_aliveIds.mpr ⟨last, found, .inr rfl⟩)]
  constructor
  · intro least id n shown online
    exact least id (mem_aliveIds.mpr ⟨n, shown, .inl online⟩)
  · intro least id alive
    obtain ⟨n, shown, online | same⟩ := mem_aliveIds.mp alive
    · exact least id n shown online
    · rw [same]
      exact le_refl _

theorem listed_host (here : v ∈ fleet.views) {n : Node} (peer : n ∈ v.peers) (known : isLocalKey (listedId n) = false) :
    listedId n = fleet.host v n := by
  rcases fleet.kept v here n peer with same | ⟨unnamed, made⟩
  · exact same
  · rw [listedId, unnamed, Option.getD_none] at known
    rw [known] at made
    exact absurd made Bool.false_ne_true

theorem local_unique (here : v ∈ fleet.views) {n m : Node} (left : n ∈ v.peers) (right : m ∈ v.peers)
    (made : isLocalKey (listedId n) = true) (same : listedId m = listedId n) : m = n := by
  have unnamed : ∀ k ∈ v.peers, listedId k = listedId n → k.id = listedId n := by
    intro k peer shared
    rcases fleet.kept v here k peer with own | ⟨unnamed, -⟩
    · have named := fleet.named v here k peer
      rw [← own, shared] at named
      exact absurd (local_lt made named) (lt_irrefl _)
    · rw [← shared, listedId, unnamed, Option.getD_none]
  exact peer_eq right left ((unnamed m right same).trans (unnamed n left rfl).symm)

theorem leads_knows (here : v ∈ fleet.views) (perm : order.Perm v.listed) (leads : v.Leads order) : v.Knows := by
  intro n peer online
  by_contra made
  have made : isLocalKey (listedId n) = true := by simpa using made
  obtain ⟨m, found⟩ := peer_last perm peer
  obtain ⟨other, same⟩ := last_peer perm found
  have least := (leads_iff here perm).mp leads (listedId n) m found
  rw [local_unique here peer other made same] at least
  exact absurd (local_lt made (id_named here)) (not_lt_of_ge (least online))

theorem fellow_listed (here : v ∈ fleet.views) (fellow : w ∈ fleet.views) (knows : v.Knows) :
    ∃ n ∈ v.peers, n.online = true ∧ listedId n = w.me.id := by
  obtain ⟨n, peer, online, host⟩ := (fleet.agree v here w.me.id).mpr ⟨w, fellow, rfl⟩
  exact ⟨n, peer, online, (listed_host here peer (knows n peer online)).trans host⟩

theorem leads_stale (here : v ∈ fleet.views) (perm : order.Perm v.listed) (leads : v.Leads order) (fellow : w ∈ fleet.views)
    (before : w.me.id < v.me.id) : v.Stale w.me.id := by
  obtain ⟨n, peer, -, named⟩ := fellow_listed here fellow (leads_knows here perm leads)
  obtain ⟨m, found⟩ := peer_last perm peer
  rw [named] at found
  obtain ⟨other, same⟩ := last_peer perm found
  refine ⟨m, other, same, ?_⟩
  by_contra online
  have online : m.online = true := by simpa using online
  exact absurd before (not_lt_of_ge ((leads_iff here perm).mp leads w.me.id m found online))

theorem leads_of_knows (here : v ∈ fleet.views) (perm : order.Perm v.listed) (knows : v.Knows)
    (passed : ∀ u ∈ fleet.views, u.me.id < v.me.id → ∀ n, lastListed order u.me.id = some n → n.online = false) : v.Leads order := by
  apply (leads_iff here perm).mpr
  intro id n found online
  obtain ⟨peer, named⟩ := last_peer perm found
  have host := listed_host here peer (knows n peer online)
  obtain ⟨u, fellow, same⟩ := (fleet.agree v here (fleet.host v n)).mp ⟨n, peer, online, rfl⟩
  have uid : u.me.id = id := by rw [same, ← host, named]
  by_contra after
  have offline := passed u fellow (by rw [uid]; exact lt_of_not_ge after) n (by rw [uid]; exact found)
  rw [online] at offline
  exact absurd offline (by simp)

theorem first_leads (here : v ∈ fleet.views) (perm : order.Perm v.listed) (knows : v.Knows)
    (first : ∀ w ∈ fleet.views, v.me.id ≤ w.me.id) : v.Leads order := by
  apply leads_of_knows here perm knows
  intro u fellow before
  exact absurd before (not_lt_of_ge (first u fellow))

theorem view_eq (left : v ∈ fleet.views) (right : w ∈ fleet.views) (same : v.me.id = w.me.id) : v = w :=
  List.inj_on_of_nodup_map fleet.apart left right same

theorem exists_first (here : v ∈ fleet.views) : ∃ m ∈ fleet.views, ∀ w ∈ fleet.views, m.me.id ≤ w.me.id :=
  Set.exists_min_image {w | w ∈ fleet.views} (fun w => w.me.id) (List.finite_toSet fleet.views) ⟨v, here⟩

theorem Settled.oneDriver (settled : fleet.Settled) : fleet.OneDriver := by
  intro order perm v here
  obtain ⟨m, first, least⟩ := exists_first here
  refine ⟨m, ⟨first, settled.oneCluster v here m first, ?_⟩, ?_⟩
  · exact first_leads first (perm m first) (settled.firstKnows m first least) least
  · rintro w ⟨there, -, leads⟩
    by_contra other
    have before : m.me.id < w.me.id := lt_of_le_of_ne (least w there) fun same => other (view_eq first there same).symm
    obtain ⟨u, fellow, earlier, fresh⟩ := settled.othersYield w there m first before (leads_knows there (perm w there) leads)
    exact fresh (leads_stale there (perm w there) leads fellow earlier)

theorem Settled.driven (settled : fleet.Settled) {orders : Seen → List Node} (perm : ∀ v ∈ fleet.views, (orders v).Perm v.listed)
    {proxies : List HttpProxy} {p : HttpProxy} (member : p ∈ proxies) (managed : p.managesDns = true) {name : String}
    (named : name ∈ p.serverNames) (here : v ∈ fleet.views) :
    ∃ w ∈ fleet.views, (∃ call ∈ edgeTick proxies (fromClusterState w.me.id (orders w)), call.proxy = p.id ∧ call.serverName = name) ∧
      ∀ other ∈ fleet.views, edgeTick proxies (fromClusterState other.me.id (orders other)) ≠ [] → other = w := by
  obtain ⟨w, ⟨there, -, leads⟩, only⟩ := settled.oneDriver orders perm v here
  refine ⟨w, there, ⟨_, mem_edgeTick.mpr ⟨leads, p, member, managed, name, named, rfl⟩, rfl, rfl⟩, ?_⟩
  intro other elsewhere drives
  obtain ⟨call, made⟩ := List.exists_mem_of_ne_nil _ drives
  exact only other ⟨elsewhere, settled.oneCluster v here other elsewhere, (mem_edgeTick.mp made).1⟩

theorem leads_first (here : v ∈ fleet.views) (leads : v.Leads (split v.listed true)) (fellow : w ∈ fleet.views) : v.me.id ≤ w.me.id := by
  have perm := split_perm v.listed true
  obtain ⟨n, peer, online, named⟩ := fellow_listed here fellow (leads_knows here perm leads)
  obtain ⟨member, wolf⟩ := (mem_peers (List.Perm.refl _)).mp peer
  obtain ⟨m, found⟩ := peer_last perm peer
  rw [named] at found
  exact (leads_iff here perm).mp leads w.me.id m found (split_last member wolf named online found)

theorem sameCluster_join {u v w : Seen} (left : sameCluster u w = true) (right : sameCluster v w = true) : sameCluster u v = true := by
  simp only [sameCluster, clusterEq, decide_eq_true_eq] at left right ⊢
  exact left.trans right.symm

theorem OneDriver.settled (one : fleet.OneDriver) : fleet.Settled := by
  have leader : ∀ v ∈ fleet.views, ∃ w ∈ fleet.views, sameCluster v w = true ∧ w.Leads (split w.listed true) := by
    intro v here
    obtain ⟨w, ⟨there, same, leads⟩, -⟩ := one (fun v => split v.listed true) (fun v _ => split_perm v.listed true) v here
    exact ⟨w, there, same, leads⟩
  have oneCluster : ∀ v ∈ fleet.views, ∀ w ∈ fleet.views, sameCluster v w = true := by
    intro v here w there
    obtain ⟨a, left, inV, leadsV⟩ := leader v here
    obtain ⟨b, right, inW, leadsW⟩ := leader w there
    have same : a = b := view_eq left right (le_antisymm (leads_first left leadsV right) (leads_first right leadsW left))
    exact sameCluster_join inV (same ▸ inW)
  have firstKnows : ∀ v ∈ fleet.views, (∀ w ∈ fleet.views, v.me.id ≤ w.me.id) → v.Knows := by
    intro v here least
    obtain ⟨a, there, -, leads⟩ := leader v here
    have same : a = v := view_eq there here (le_antisymm (leads_first there leads here) (least a there))
    exact leads_knows here (split_perm v.listed true) (same ▸ leads)
  refine ⟨oneCluster, firstKnows, ?_⟩
  intro v here w there before knows
  by_contra masked
  push Not at masked
  -- With the old records last, both this node and the first one lead.
  obtain ⟨m, first, least⟩ := exists_first here
  have perm := fun u : Seen => split_perm u.listed false
  have leads : v.Leads (split v.listed false) := by
    apply leads_of_knows here (perm v) knows
    intro u fellow earlier n found
    obtain ⟨old, peer, named, offline⟩ := masked u fellow earlier
    obtain ⟨member, wolf⟩ := (mem_peers (List.Perm.refl _)).mp peer
    exact split_last member wolf named offline found
  have also := first_leads first (perm m) (firstKnows m first least) least
  obtain ⟨a, -, only⟩ := one (fun u => split u.listed false) (fun u _ => perm u) v here
  have left := only v ⟨here, oneCluster v here v here, leads⟩
  have right := only m ⟨first, oneCluster v here m first, also⟩
  rw [left, ← right] at before
  exact absurd before (not_lt_of_ge (least w there))

end Fleet

/-- Every cluster has one driver where there is one cluster, its first node knows everybody by
their own ids, and no other node misses all that go before it. -/
theorem one_driver_iff (fleet : Fleet) : fleet.OneDriver ↔ fleet.Settled :=
  ⟨Fleet.OneDriver.settled, Fleet.Settled.oneDriver⟩

def pairId (second : Bool) : String := if second then "ws-b" else "ws-a"

def ownRecord (second : Bool) : Node := { sampleNode (pairId second) "10.0.0.1" with isSelf := true }

def fellowRecord (polled second : Bool) : Node :=
  { sampleNode "node-1" "10.0.0.2" with selfId := if polled then some (pairId !second) else none }

def pairSeen (polled second : Bool) : Seen where
  me := ⟨pairId second, "10.0.0.1", pairId second, 8553⟩
  now := 5
  nodes := ⟨[ownRecord second, fellowRecord polled second], by cases polled <;> cases second <;> decide⟩

theorem pairSeen_peers (polled second : Bool) : (pairSeen polled second).peers = [ownRecord second, fellowRecord polled second] := by
  cases polled <;> cases second <;> decide +kernel

def pairHost (v : Seen) (n : Node) : String := if n.isSelf then v.me.id else if v.me.id = pairId true then pairId false else pairId true

theorem pairHost_own (polled second : Bool) : pairHost (pairSeen polled second) (ownRecord second) = pairId second := rfl

theorem pairHost_fellow (polled second : Bool) :
    pairHost (pairSeen polled second) (fellowRecord polled second) = pairId !second := by
  cases polled <;> cases second <;> decide

theorem mem_pair {polled : Bool} {v : Seen} (here : v ∈ [pairSeen polled false, pairSeen polled true]) :
    ∃ second, v = pairSeen polled second := by
  simp only [List.mem_cons, List.not_mem_nil, or_false] at here
  rcases here with rfl | rfl
  · exact ⟨false, rfl⟩
  · exact ⟨true, rfl⟩

theorem pairId_prefixed (second : Bool) : nodeIdPrefix.toList <+: (pairId second).toList := by cases second <;> decide +kernel

def pairFleet (polled : Bool) : Fleet where
  views := [pairSeen polled false, pairSeen polled true]
  host := pairHost
  apart := by cases polled <;> decide
  named v here n peer := by
    obtain ⟨second, rfl⟩ := mem_pair here
    rw [pairSeen_peers] at peer
    simp only [List.mem_cons, List.not_mem_nil, or_false] at peer
    rcases peer with rfl | rfl
    · exact pairId_prefixed second
    · rw [pairHost_fellow]
      exact pairId_prefixed _
  own v here := by
    obtain ⟨second, rfl⟩ := mem_pair here
    refine ⟨ownRecord second, ?_, rfl, rfl, rfl, rfl, rfl⟩
    exact NodeMap.get_eq_some.mpr ⟨List.mem_cons_self, rfl⟩
  kept v here n peer := by
    obtain ⟨second, rfl⟩ := mem_pair here
    rw [pairSeen_peers] at peer
    simp only [List.mem_cons, List.not_mem_nil, or_false] at peer
    rcases peer with rfl | rfl
    · exact .inl rfl
    · cases polled with
      | false => exact .inr ⟨rfl, by cases second <;> decide +kernel⟩
      | true => exact .inl (pairHost_fellow true second).symm
  agree v here id := by
    obtain ⟨second, rfl⟩ := mem_pair here
    simp only [pairSeen_peers, List.mem_cons, List.not_mem_nil, or_false, exists_eq_or_imp, exists_eq_left, pairHost_own,
      pairHost_fellow]
    cases second <;> simp [pairSeen, ownRecord, fellowRecord, sampleNode, or_comm]

/-- Two nodes that know each other by a key of their own only: neither drives. -/
theorem strangers_undriven : ¬(pairFleet false).OneDriver := by
  intro one
  have least : ∀ w ∈ (pairFleet false).views, (pairSeen false false).me.id ≤ w.me.id := by
    intro w there
    obtain ⟨second, rfl⟩ := mem_pair there
    cases second <;> decide +kernel
  have knows := one.settled.firstKnows (pairSeen false false) List.mem_cons_self least
  have known := knows (fellowRecord false false) (by rw [pairSeen_peers]; decide) rfl
  exact absurd known (by decide)

end Edge
