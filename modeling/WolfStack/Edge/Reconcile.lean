import WolfStack.Cluster.State
import Mathlib.Data.String.Basic
import Mathlib.Data.List.Sort

/-! What a node knows of the others when the edge reconciler runs, who drives the records
of the managed proxies, and what the driver sets out to do. The providers' interfaces are
left out. -/

namespace Edge
open Cluster

/-- `HashMap<String, (String, bool)>`: the public address of a node, and whether it is online. -/
structure ClusterSnapshot where
  nodes : List (String × String × Bool)
  selfNodeId : String
deriving DecidableEq

def listedId (n : Node) : String := n.selfId.getD n.id

def insert (nodes : List (String × String × Bool)) (id : String) (entry : String × Bool) : List (String × String × Bool) :=
  (id, entry) :: nodes.filter fun e => e.1 ≠ id

def collect (nodes : List (String × String × Bool)) (n : Node) : List (String × String × Bool) :=
  if n.nodeType ≠ "wolfstack" then nodes else insert nodes (listedId n) (n.publicIp.getD "", n.online)

/-- `from_cluster_state`, for the nodes in the order in which they are listed. -/
def fromClusterState (selfNodeId : String) (listed : List Node) : ClusterSnapshot where
  nodes := (listed.foldl collect []).map fun e => if e.1 = selfNodeId then (e.1, e.2.1, true) else e
  selfNodeId := selfNodeId

def ClusterSnapshot.get (snapshot : ClusterSnapshot) (id : String) : Option (String × Bool) :=
  (snapshot.nodes.find? fun e => e.1 = id).map Prod.snd

def ClusterSnapshot.aliveIds (snapshot : ClusterSnapshot) : List String :=
  snapshot.nodes.filterMap fun e => if e.2.2 then some e.1 else none

def amILeader (snapshot : ClusterSnapshot) : Bool :=
  match (snapshot.aliveIds.mergeSort fun a b => decide (a ≤ b)).head? with
  | some id => id = snapshot.selfNodeId
  | none => true

theorem head_mergeSort (ids : List String) :
    (ids.mergeSort fun a b => decide (a ≤ b)).head? = none ∧ ids = [] ∨
      ∃ first ∈ ids, (ids.mergeSort fun a b => decide (a ≤ b)).head? = some first ∧ ∀ id ∈ ids, first ≤ id := by
  have sorted := @List.pairwise_mergeSort String (fun a b => decide (a ≤ b)) (by simpa using fun a b c => le_trans)
    (by simpa using fun a b => le_total a b) ids
  have same : ∀ id, id ∈ ids.mergeSort (fun a b => decide (a ≤ b)) ↔ id ∈ ids := fun id => List.mem_mergeSort
  cases shape : ids.mergeSort fun a b => decide (a ≤ b) with
  | nil =>
    apply Or.inl
    have size := congrArg List.length shape
    rw [List.length_mergeSort] at size
    exact ⟨rfl, List.eq_nil_of_length_eq_zero size⟩
  | cons first rest =>
    rw [shape] at sorted same
    apply Or.inr
    refine ⟨first, (same first).mp List.mem_cons_self, rfl, ?_⟩
    intro id member
    rcases List.mem_cons.mp ((same id).mpr member) with rfl | later
    · exact le_refl _
    · simpa using (List.pairwise_cons.mp sorted).1 id later

theorem amILeader_iff {snapshot : ClusterSnapshot} (alive : snapshot.selfNodeId ∈ snapshot.aliveIds) :
    amILeader snapshot = true ↔ ∀ id ∈ snapshot.aliveIds, snapshot.selfNodeId ≤ id := by
  unfold amILeader
  rcases head_mergeSort snapshot.aliveIds with ⟨-, empty⟩ | ⟨first, member, head, least⟩
  · rw [empty] at alive
    exact absurd alive List.not_mem_nil
  · rw [head]
    constructor
    · intro same
      have same : first = snapshot.selfNodeId := by simpa using same
      exact same ▸ least
    · intro smallest
      have same := le_antisymm (least _ alive) (smallest first member)
      simpa using same

structure HttpProxy where
  id : String
  serverNames : List String
  targets : List String
  managesDns : Bool

def liveIpsFor (proxy : HttpProxy) (snapshot : ClusterSnapshot) : List String :=
  ((proxy.targets.filterMap fun target => (snapshot.get target).bind fun entry =>
    if entry.2 ∧ entry.1 ≠ "" then some entry.1 else none).mergeSort fun a b => decide (a ≤ b)).dedup

/-- A call of `reconcile_one`. -/
structure Call where
  proxy : String
  serverName : String
  liveIps : List String
deriving DecidableEq

def runPass (proxies : List HttpProxy) (snapshot : ClusterSnapshot) (shouldDrive : Bool) : List Call :=
  if ¬shouldDrive then []
  else (proxies.filter HttpProxy.managesDns).flatMap fun p => p.serverNames.map fun name => ⟨p.id, name, liveIpsFor p snapshot⟩

def edgeTick (proxies : List HttpProxy) (snapshot : ClusterSnapshot) : List Call :=
  if ¬amILeader snapshot then []
  else if proxies.all fun p => !p.managesDns then []
  else runPass proxies snapshot true

theorem mem_edgeTick {proxies : List HttpProxy} {snapshot : ClusterSnapshot} {call : Call} :
    call ∈ edgeTick proxies snapshot ↔ amILeader snapshot = true ∧
      ∃ p ∈ proxies, p.managesDns = true ∧ ∃ name ∈ p.serverNames, call = ⟨p.id, name, liveIpsFor p snapshot⟩ := by
  unfold edgeTick
  by_cases leads : amILeader snapshot = true
  · rw [if_neg (fun no => no leads)]
    split
    · rename_i unmanaged
      simp only [List.all_eq_true, Bool.not_eq_true'] at unmanaged
      constructor
      · exact fun none => absurd none List.not_mem_nil
      · intro driven
        obtain ⟨-, p, member, managed, -⟩ := driven
        rw [unmanaged p member] at managed
        exact absurd managed Bool.false_ne_true
    · simp only [runPass, leads, not_true, if_false, List.mem_flatMap, List.mem_filter, List.mem_map, true_and, and_assoc,
        eq_comm]
  · rw [if_pos leads]
    constructor
    · exact fun none => absurd none List.not_mem_nil
    · exact fun driven => absurd driven.1 leads

end Edge
