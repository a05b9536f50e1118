import WolfStack.WolfHa.PveReceive
import WolfStack.WolfHa.Requests
import WolfStack.Effects.Steps

/-! The nodes of a Proxmox container over many rounds: snapshots are taken, streams arrive
whole, in part or not at all, rounds are pruned, and another node takes over. -/

universe u

namespace WolfHa
open ZfsSend Effects

namespace PveNode

/-- What `zfs send` puts out for a request. Its arguments are the names in the request, which
have no blanks around them. -/
def sends (sender : PveNode) (f : ZfsForm) : Option Stream :=
  (sender.pool (asked f).dataset).bind fun list => send list (asked f).base (asked f).snapshot

theorem sends_filled {sender : PveNode} {f : ZfsForm} {stream : Stream} (sent : sender.sends f = some stream) :
    stream.snaps ≠ [] := by
  intro empty
  obtain ⟨source, _, sends⟩ := Option.bind_eq_some_iff.mp sent
  obtain ⟨last, ends, _⟩ := send_last sends
  rw [empty] at ends
  exact absurd ends nofun

/-- `pve_take_snapshot`, or anybody else's snapshot: all the datasets at once. -/
def takeSnapshot (node : PveNode) (datasets : List String) (snap : Snap) : Option PveNode :=
  if datasets.all fun ds => (node.pool ds).any fun list => !(list.map (·.name)).contains snap.name then
    some { node with pool := fun ds => if ds ∈ datasets then (node.pool ds).map (· ++ [snap]) else node.pool ds }
  else none

/-- `pve_finish_round`: what is older than a round goes only when all the standbys have it. -/
def pveFinishRound (node : PveNode) (vmid : String) (round : PveRound) (allOk : Bool) (fails : String → String → Bool) : PveNode :=
  if !allOk then
    node
  else
    { node with pool := fun ds =>
        if ds ∈ round.datasets then (node.pool ds).map fun list => prune list vmid round.snapshot (fails ds) else node.pool ds }

end PveNode

/-- A round that is under way, with the streams that its standbys have confirmed. -/
structure OpenRound (ι : Type u) where
  round : PveRound
  confirmed : List (ι × String)

namespace OpenRound
variable {ι : Type u} [DecidableEq ι]

/-- `pve_all_ok` at the end of the round: every stream to every standby has succeeded. -/
def allOk (o : OpenRound ι) (replicas : List ι) : Bool :=
  replicas.all fun peer => o.round.datasets.all fun ds => decide ((peer, ds) ∈ o.confirmed)

def confirm (snapshot : String) (stream : ι × String) (o : OpenRound ι) : OpenRound ι :=
  if o.round.snapshot = snapshot then { o with confirmed := stream :: o.confirmed } else o

end OpenRound

structure PveFleet (ι : Type u) where
  nodes : ι → PveNode
  /-- Where the container runs, or who took over last. -/
  acting : ι
  rounds : ι → List (OpenRound ι)

inductive FleetEvent (ι : Type u) where
  /-- Anybody's snapshot. -/
  | snapshot (node : ι) (datasets : List String) (snap : Snap)
  /-- `pve_take_snapshot`, with which a round begins. -/
  | begin_ (node : ι) (datasets : List String) (snap : Snap)
  /-- One request of a round; its answer may be lost on the way back. -/
  | stream (sender receiver : ι) (form : ZfsForm) (fates : PveNode.ReceiveFates) (told : Bool)
  /-- The end of a round that has gone to `replicas`. -/
  | finish (node : ι) (round : PveRound) (replicas : List ι) (fails : String → String → Bool)
  | takeOver (node : ι)
  /-- Whatever else happens to a node's container and to its entry, which stays. -/
  | bookkeep (node : ι) (running : Bool) (change : HaEntry → HaEntry)

namespace PveFleet
variable {ι : Type u} [DecidableEq ι] (vmid : String) (s : PveFleet ι)

def setNode (node : ι) (value : PveNode) : PveFleet ι := { s with nodes := Function.update s.nodes node value }

def setRounds (node : ι) (rounds : List (OpenRound ι)) : PveFleet ι := { s with rounds := Function.update s.rounds node rounds }

def bookkept (node : PveNode) (running : Bool) (change : HaEntry → HaEntry) : PveNode :=
  { node with
    running := Function.update node.running vmid running
    store := node.store.modify vmid fun e => { change e with container := e.container } }

def step : FleetEvent ι → Option (PveFleet ι)
  | .snapshot node datasets snap => ((s.nodes node).takeSnapshot datasets snap).map (s.setNode node)
  | .begin_ node datasets snap => ((s.nodes node).takeSnapshot datasets snap).map fun value =>
      (s.setNode node value).setRounds node (⟨⟨datasets, snap.name⟩, []⟩ :: s.rounds node)
  | .stream sender receiver form fates told =>
    if sender = receiver ∨ Auth.trim form.container ≠ vmid then
      none
    else
      let (value, answer) := (s.nodes receiver).wolfhaReceiveZfs form ((s.nodes sender).sends form) fates
      let confirmed := (s.rounds sender).map (.confirm (Auth.trim form.snapshot) (receiver, Auth.trim form.dataset))
      some (if told && answer.isOk then (s.setNode receiver value).setRounds sender confirmed else s.setNode receiver value)
  | .finish node round replicas fails =>
    match (s.rounds node).find? fun o => o.round = round with
    | none => none
    | some o =>
      some ((s.setNode node ((s.nodes node).pveFinishRound vmid round (o.allOk replicas) fails)).setRounds node
        ((s.rounds node).filter fun o => o.round ≠ round))
  | .takeOver node => some { s with acting := node }
  | .bookkeep node running change => some (s.setNode node (bookkept vmid (s.nodes node) running change))

def at_ (node : ι) (dataset : String) : Option (List Snap) := (s.nodes node).pool dataset

def Shares (left right : Option (List Snap)) : Prop :=
  ∃ list ∈ left, ∃ other ∈ right, ∃ snap ∈ ours list vmid, snap ∈ other

/-- A snapshot of ours has a name that is nowhere on the datasets nor that of a round under way,
and a later time than those of ours on its node. Beside the acting primary, a snapshot is
taken of such datasets only as share nothing of ours with the primary. -/
def FitsSnapshot (node : ι) (datasets : List String) (snap : Snap) : Prop :=
  ∀ ds ∈ datasets,
    (isOurs snap.name vmid = true → (∀ o ∈ s.rounds node, o.round.snapshot ≠ snap.name) ∧
      ∀ other, ∀ list ∈ s.at_ other ds, ∀ old ∈ list,
        old.name ≠ snap.name ∧ (other = node → isOurs old.name vmid = true → snapshotTs old.name < snapshotTs snap.name)) ∧
    (node ≠ s.acting → ¬Shares vmid (s.at_ node ds) (s.at_ s.acting ds))

/-- No stream is let in on the acting primary. Elsewhere none is let in of an older round than
one that the node has confirmed to it; if anything of it arrives, then the last that does is a
snapshot of ours which the acting primary holds; and a first stream to a node is received and
recorded in full, or nothing of it arrives. -/
def FitsStream (sender receiver : ι) (form : ZfsForm) (fates : PveNode.ReceiveFates) : Prop :=
  ∀ plan, (s.nodes receiver).receiveGate form = .ok plan →
    receiver ≠ s.acting ∧
    (∀ o ∈ s.rounds s.acting, (receiver, plan.dataset) ∈ o.confirmed → snapshotTs o.round.snapshot ≤ snapshotTs plan.snapshot) ∧
    (∀ stream ∈ (s.nodes sender).sends form,
      (stream.base = none ∨ ∃ base ∈ stream.base, (s.nodes receiver).newest plan.dataset = some base) →
      ∀ last ∈ (stream.arrived fates.cut).getLast?, ∃ primary ∈ s.at_ s.acting plan.dataset, last ∈ ours primary vmid) ∧
    ((s.nodes receiver).store.get vmid = none → fates.cut = some 0 ∨ fates.Completes)

/-- A round ends before there is a later snapshot of ours on its node, and the acting primary's
has gone to every node that shares a snapshot of ours with it. -/
def FitsFinish (node : ι) (round : PveRound) (replicas : List ι) : Prop :=
  ∀ ds ∈ round.datasets, ∀ list ∈ s.at_ node ds,
    ((ours list vmid).getLast?.map (·.name) = some round.snapshot) ∧
    (node = s.acting → ∀ other, other ≠ node → Shares vmid (s.at_ other ds) (some list) → other ∈ replicas)

/-- A node takes over with no round of its own under way. Of a volume of which another node
shares a snapshot of ours with it, it has missed nothing of ours that the acting primary
holds since the node's first; nothing else follows there; and the other node shares one with
the acting primary, too. -/
def FitsTakeOver (volumes : List String) (node : ι) : Prop :=
  s.rounds node = [] ∧ ∀ ds ∈ volumes, ∀ other, other ≠ node → Shares vmid (s.at_ other ds) (s.at_ node ds) →
    ∃ list ∈ s.at_ node ds, ∃ primary ∈ s.at_ s.acting ds,
      (∀ old ∈ ours list vmid, ∀ snap ∈ ours primary vmid, snapshotTs old.name ≤ snapshotTs snap.name → snap ∈ list) ∧
      (∀ last ∈ primary.getLast?, isOurs last.name vmid = true) ∧
      Shares vmid (s.at_ other ds) (some primary)

def Fits (volumes : List String) : FleetEvent ι → Prop
  | .snapshot node datasets snap | .begin_ node datasets snap => s.FitsSnapshot vmid node datasets snap
  | .stream sender receiver form fates _ => s.FitsStream vmid sender receiver form fates
  | .finish node round replicas _ => s.FitsFinish vmid node round replicas
  | .takeOver node => s.FitsTakeOver vmid volumes node
  | .bookkeep _ _ _ => True

instance (fates : PveNode.ReceiveFates) : Decidable fates.Completes :=
  decidable_of_iff (fates.cut = none ∧ ∃ commit ∈ fates.committed, commit.2.configWritten = .ok () ∧ commit.2.saved = .ok ())
    ⟨fun ⟨uncut, commit, committed, done⟩ => ⟨uncut, commit.1, commit.2, committed, done⟩,
      fun ⟨uncut, now, commit, committed, done⟩ => ⟨uncut, (now, commit), committed, done⟩⟩

instance (left right : Option (List Snap)) : Decidable (Shares vmid left right) :=
  inferInstanceAs (Decidable (∃ list ∈ left, ∃ other ∈ right, ∃ snap ∈ ours list vmid, snap ∈ other))

instance [Fintype ι] (volumes : List String) : (event : FleetEvent ι) → Decidable (s.Fits vmid volumes event)
  | .snapshot node datasets snap | .begin_ node datasets snap => by
    change Decidable (s.FitsSnapshot vmid node datasets snap)
    delta FitsSnapshot
    infer_instance
  | .stream sender receiver form fates _ => by
    change Decidable (s.FitsStream vmid sender receiver form fates)
    delta FitsStream
    infer_instance
  | .finish node round replicas _ => by
    change Decidable (s.FitsFinish vmid node round replicas)
    delta FitsFinish
    infer_instance
  | .takeOver node => by
    change Decidable (s.FitsTakeOver vmid volumes node)
    delta FitsTakeOver
    infer_instance
  | .bookkeep _ _ _ => isTrue trivial

/-- If the primary's newest snapshot of ours is the one named, then the peer's copy ends with it. -/
def Settled (snapshot : String) (peer : ι) (ds : String) : Prop :=
  ∀ primary newest list, s.at_ s.acting ds = some primary → (ours primary vmid).getLast? = some newest → newest.name = snapshot →
    s.at_ peer ds = some list → list.getLast? = some newest

/-- Nothing of ours is on two nodes with one name but different, and where there is no entry
there is nothing of the container. -/
structure Kept (volumes : List String) : Prop where
  rising : ∀ node ds list, s.at_ node ds = some list → Rising vmid list
  single : ∀ left right ds first second, s.at_ left ds = some first → s.at_ right ds = some second →
    ∀ x ∈ ours first vmid, ∀ y ∈ ours second vmid, x.name = y.name → x = y
  linked : ∀ other, other ≠ s.acting → ∀ ds ∈ volumes, Linked vmid (s.at_ s.acting ds) (s.at_ other ds)
  settled : ∀ o ∈ s.rounds s.acting, ∀ peer ds, (peer, ds) ∈ o.confirmed →
    peer ≠ s.acting ∧ s.Settled vmid o.round.snapshot peer ds
  vacant : ∀ node, (s.nodes node).store.get vmid = none → (s.nodes node).configs vmid = false ∧
    (s.nodes node).foreignConfigs vmid = [] ∧ ∀ ds ∈ volumes, s.at_ node ds = none

/-- Only one node has anything of the container: its volumes, without snapshots of ours. -/
structure Begun (volumes : List String) : Prop where
  rounds : s.rounds = fun _ => []
  rising : ∀ node ds list, s.at_ node ds = some list → ours list vmid = []
  vacant : ∀ node, (s.nodes node).store.get vmid = none → (s.nodes node).configs vmid = false ∧
    (s.nodes node).foreignConfigs vmid = [] ∧ ∀ ds ∈ volumes, s.at_ node ds = none

variable {vmid} {s} {volumes : List String} {after : PveFleet ι} {node : ι}

omit [DecidableEq ι] in
theorem Begun.kept (begun : s.Begun vmid volumes) : s.Kept vmid volumes where
  rising node ds list there := by
    unfold Rising
    rw [begun.rising node ds list there]
    exact List.Pairwise.nil
  single left right ds first second there _ x mine := by
    rw [begun.rising left ds first there] at mine
    exact absurd mine List.not_mem_nil
  linked other _ ds _ list copied _ there := by
    intro ⟨snap, mine, _⟩
    rw [begun.rising other ds copied there] at mine
    exact absurd mine List.not_mem_nil
  settled o member := by
    rw [begun.rounds] at member
    exact absurd member List.not_mem_nil
  vacant := begun.vacant

@[simp] theorem acting_setNode (value : PveNode) : (s.setNode node value).acting = s.acting := rfl

theorem at_setNode (value : PveNode) (ds : String) : (s.setNode node value).at_ node ds = value.pool ds := by
  simp [at_, setNode]

theorem at_setNode_other {other : ι} (value : PveNode) (ds : String) (apart_ : other ≠ node) :
    (s.setNode node value).at_ other ds = s.at_ other ds := by
  simp [at_, setNode, apart_]

omit [DecidableEq ι] in
theorem Kept.named {left right : ι} {ds : String} {first second : List Snap} {x y : Snap} (kept : s.Kept vmid volumes)
    (there : s.at_ left ds = some first) (here : s.at_ right ds = some second) (mine : x ∈ ours first vmid) (member : y ∈ second)
    (same : x.name = y.name) : x = y :=
  kept.single left right ds first second there here x mine y (mem_ours.mpr ⟨member, same ▸ (mem_ours.mp mine).2⟩) same

theorem Kept.changed {value : PveNode} (kept : s.Kept vmid volumes)
    (rising : ∀ ds list, value.pool ds = some list → Rising vmid list)
    (single : ∀ other ds list first, other ≠ node → value.pool ds = some list → s.at_ other ds = some first →
      ∀ x ∈ ours list vmid, ∀ y ∈ ours first vmid, x.name = y.name → x = y)
    (primary : node = s.acting → ∀ other, other ≠ node → ∀ ds ∈ volumes, Linked vmid (value.pool ds) (s.at_ other ds))
    (copy : node ≠ s.acting → ∀ ds ∈ volumes, Linked vmid (s.at_ s.acting ds) (value.pool ds))
    (front : node = s.acting → ∀ o ∈ s.rounds s.acting, ∀ ds list newest, value.pool ds = some list →
      (ours list vmid).getLast? = some newest → newest.name = o.round.snapshot →
      ∃ before, s.at_ node ds = some before ∧ (ours before vmid).getLast? = some newest)
    (back : node ≠ s.acting → ∀ o ∈ s.rounds s.acting, ∀ ds, (node, ds) ∈ o.confirmed → s.Settled vmid o.round.snapshot node ds →
      ∀ primary newest list, s.at_ s.acting ds = some primary → (ours primary vmid).getLast? = some newest →
        newest.name = o.round.snapshot → value.pool ds = some list → list.getLast? = some newest)
    (vacant : value.store.get vmid = none → value.configs vmid = false ∧ value.foreignConfigs vmid = [] ∧
      ∀ ds ∈ volumes, value.pool ds = none) : (s.setNode node value).Kept vmid volumes where
  rising other ds list there := by
    by_cases own : other = node
    · subst own
      rw [at_setNode] at there
      exact rising ds list there
    · rw [at_setNode_other value ds own] at there
      exact kept.rising other ds list there
  single left right ds first second there here x mine y also same := by
    by_cases leftOwn : left = node
    · subst leftOwn
      rw [at_setNode] at there
      by_cases rightOwn : right = left
      · subst rightOwn
        rw [at_setNode] at here
        obtain rfl := Option.some.inj (there.symm.trans here)
        exact (rising ds first there).named mine also same
      · rw [at_setNode_other value ds rightOwn] at here
        exact single right ds first second rightOwn there here x mine y also same
    · rw [at_setNode_other value ds leftOwn] at there
      by_cases rightOwn : right = node
      · subst rightOwn
        rw [at_setNode] at here
        exact (single left ds second first leftOwn here there y also x mine same.symm).symm
      · rw [at_setNode_other value ds rightOwn] at here
        exact kept.single left right ds first second there here x mine y also same
  linked other apart_ ds volume := by
    rw [acting_setNode] at apart_ ⊢
    by_cases acts : node = s.acting
    · subst acts
      rw [at_setNode, at_setNode_other value ds apart_]
      exact primary rfl other apart_ ds volume
    · rw [at_setNode_other value ds (Ne.symm acts)]
      by_cases own : other = node
      · subst own
        rw [at_setNode]
        exact copy acts ds volume
      · rw [at_setNode_other value ds own]
        exact kept.linked other apart_ ds volume
  settled o open_ peer ds confirmed := by
    obtain ⟨apart_, before⟩ := kept.settled o open_ peer ds confirmed
    refine ⟨apart_, fun mine newest list there closes named here => ?_⟩
    rw [acting_setNode] at there
    by_cases acts : node = s.acting
    · subst acts
      rw [at_setNode] at there
      rw [at_setNode_other value ds apart_] at here
      obtain ⟨first, had, last⟩ := front rfl o open_ ds mine newest there closes named
      exact before first newest list had last named here
    · rw [at_setNode_other value ds (Ne.symm acts)] at there
      by_cases own : peer = node
      · subst own
        rw [at_setNode] at here
        exact back acts o open_ ds confirmed before mine newest list there closes named here
      · rw [at_setNode_other value ds own] at here
        exact before mine newest list there closes named here
  vacant other none_ := by
    by_cases own : other = node
    · subst own
      have same : (s.setNode other value).nodes other = value := Function.update_self ..
      rw [same] at none_ ⊢
      obtain ⟨config, foreign, absent⟩ := vacant none_
      refine ⟨config, foreign, fun ds member => ?_⟩
      rw [at_setNode]
      exact absent ds member
    · have same : (s.setNode node value).nodes other = s.nodes other := Function.update_of_ne own ..
      rw [same] at none_ ⊢
      obtain ⟨config, foreign, absent⟩ := kept.vacant other none_
      refine ⟨config, foreign, fun ds member => ?_⟩
      rw [at_setNode_other value ds own]
      exact absent ds member

theorem Kept.fewer {value : PveNode} (kept : s.Kept vmid volumes)
    (fewer : ∀ ds list, value.pool ds = some list → ∃ before, s.at_ node ds = some before ∧ list.Sublist before)
    (primary : node = s.acting → ∀ other, other ≠ node → ∀ ds ∈ volumes, Linked vmid (value.pool ds) (s.at_ other ds))
    (copy : node ≠ s.acting → ∀ ds ∈ volumes, Linked vmid (s.at_ s.acting ds) (value.pool ds))
    (front : node = s.acting → ∀ o ∈ s.rounds s.acting, ∀ ds list newest, value.pool ds = some list →
      (ours list vmid).getLast? = some newest → newest.name = o.round.snapshot →
      ∃ before, s.at_ node ds = some before ∧ (ours before vmid).getLast? = some newest)
    (back : node ≠ s.acting → ∀ o ∈ s.rounds s.acting, ∀ ds, (node, ds) ∈ o.confirmed → s.Settled vmid o.round.snapshot node ds →
      ∀ primary newest list, s.at_ s.acting ds = some primary → (ours primary vmid).getLast? = some newest →
        newest.name = o.round.snapshot → value.pool ds = some list → list.getLast? = some newest)
    (vacant : value.store.get vmid = none → value.configs vmid = false ∧ value.foreignConfigs vmid = [] ∧
      ∀ ds ∈ volumes, value.pool ds = none) : (s.setNode node value).Kept vmid volumes := by
  refine kept.changed (fun ds list there => ?_) (fun other ds list first _ there here x mine y also same => ?_) primary copy front back vacant
  · obtain ⟨before, had, sub⟩ := fewer ds list there
    exact (kept.rising node ds before had).sublist sub
  · obtain ⟨before, had, sub⟩ := fewer ds list there
    exact kept.named had here (mem_ours.mpr ⟨sub.mem (mem_ours.mp mine).1, (mem_ours.mp mine).2⟩) (mem_ours.mp also).1 same

omit [DecidableEq ι] in
theorem linked_none {primary : Option (List Snap)} : Linked vmid primary none :=
  fun _ _ _ there => absurd there nofun

omit [DecidableEq ι] in
theorem none_linked {copy : Option (List Snap)} : Linked vmid none copy :=
  fun _ _ there => absurd there nofun

omit [DecidableEq ι] in
theorem Kept.rounded {rounds : ι → List (OpenRound ι)} (kept : s.Kept vmid volumes)
    (settled : ∀ o ∈ rounds s.acting, ∀ peer ds, (peer, ds) ∈ o.confirmed → peer ≠ s.acting ∧ s.Settled vmid o.round.snapshot peer ds) :
    Kept vmid { s with rounds } volumes :=
  ⟨kept.rising, kept.single, kept.linked, settled, kept.vacant⟩

theorem Kept.booked (kept : s.Kept vmid volumes) (running : Bool) (change : HaEntry → HaEntry) :
    (s.setNode node (bookkept vmid (s.nodes node) running change)).Kept vmid volumes := by
  refine kept.fewer (fun ds list there => ⟨list, there, List.Sublist.refl list⟩) (fun acts other apart_ ds volume => ?_)
    (fun copies ds volume => kept.linked node copies ds volume) (fun _ _ _ _ list _ there closes _ => ⟨list, there, closes⟩)
    (fun _ _ _ _ _ before => before) fun none_ => ?_
  · subst acts
    exact kept.linked other apart_ ds volume
  · apply kept.vacant node
    have entry : (bookkept vmid (s.nodes node) running change).store.get vmid =
        ((s.nodes node).store.get vmid).map fun e => { change e with container := e.container } :=
      HaStore.get_modify_self _ _ _ fun _ => rfl
    rw [entry, Option.map_eq_none_iff] at none_
    exact none_

theorem pool_finished (round : PveRound) (allOk : Bool) (fails : String → String → Bool) (value : PveNode) (ds : String) :
    (value.pveFinishRound vmid round allOk fails).pool ds = value.pool ds ∨
      allOk = true ∧ ds ∈ round.datasets ∧ (value.pveFinishRound vmid round allOk fails).pool ds =
        (value.pool ds).map fun list => prune list vmid round.snapshot (fails ds) := by
  unfold PveNode.pveFinishRound
  cases allOk with
  | false => exact .inl rfl
  | true =>
    by_cases member : ds ∈ round.datasets
    · exact .inr ⟨rfl, member, if_pos member⟩
    · exact .inl (if_neg member)

/-- A round that every standby has confirmed is what all their copies end with; so whatever
else is pruned, what a copy shares with the primary is its last. -/
theorem Kept.finished {o : OpenRound ι} {replicas : List ι} (fails : String → String → Bool) (kept : s.Kept vmid volumes)
    (open_ : o ∈ s.rounds node) (fits : s.FitsFinish vmid node o.round replicas) :
    (s.setNode node ((s.nodes node).pveFinishRound vmid o.round (o.allOk replicas) fails)).Kept vmid volumes := by
  have pool : ∀ ds, ((s.nodes node).pveFinishRound vmid o.round (o.allOk replicas) fails).pool ds = s.at_ node ds ∨
      o.allOk replicas = true ∧ ds ∈ o.round.datasets ∧ ((s.nodes node).pveFinishRound vmid o.round (o.allOk replicas) fails).pool ds =
        (s.at_ node ds).map fun list => prune list vmid o.round.snapshot (fails ds) :=
    fun ds => pool_finished o.round (o.allOk replicas) fails (s.nodes node) ds
  have frame : ((s.nodes node).pveFinishRound vmid o.round (o.allOk replicas) fails).store = (s.nodes node).store ∧
      ((s.nodes node).pveFinishRound vmid o.round (o.allOk replicas) fails).configs = (s.nodes node).configs ∧
      ((s.nodes node).pveFinishRound vmid o.round (o.allOk replicas) fails).foreignConfigs = (s.nodes node).foreignConfigs := by
    unfold PveNode.pveFinishRound
    split <;> exact ⟨rfl, rfl, rfl⟩
  generalize (s.nodes node).pveFinishRound vmid o.round (o.allOk replicas) fails = value at *
  refine kept.fewer (fun ds list there => ?_) (fun acts other apart_ ds volume => ?_) (fun copies ds volume => ?_)
    (fun _ _ _ ds primary newest there closes _ => ?_) (fun _ _ _ ds _ before primary newest list there closes named here => ?_) fun none_ => ?_
  · rcases pool ds with same | ⟨_, _, pruned⟩
    · exact ⟨list, same ▸ there, List.Sublist.refl list⟩
    · obtain ⟨before, had, rfl⟩ := Option.map_eq_some_iff.mp (pruned.symm.trans there)
      exact ⟨before, had, prune_sublist ..⟩
  · subst acts
    rcases pool ds with same | ⟨all, member, pruned⟩
    · rw [same]
      exact kept.linked other apart_ ds volume
    · rw [pruned]
      intro left copied there here ⟨snap, mine, shared⟩
      obtain ⟨primary, had, rfl⟩ := Option.map_eq_some_iff.mp there
      have held : snap ∈ primary := (prune_sublist ..).mem shared
      obtain ⟨last, goes⟩ := fits ds member primary had
      obtain ⟨newest, closes, named⟩ := Option.map_eq_some_iff.mp last
      have told : (other, ds) ∈ o.confirmed := by
        have every := List.all_eq_true.mp all other (goes rfl other apart_ ⟨copied, here, primary, rfl, snap, mine, held⟩)
        exact of_decide_eq_true (List.all_eq_true.mp every ds member)
      have ends := (kept.settled o open_ other ds told).2 primary newest copied had closes named here
      exact ⟨newest, ends, List.mem_of_getLast? (newest_prune closes named)⟩
  · rcases pool ds with same | ⟨_, member, pruned⟩
    · rw [same]
      exact kept.linked node copies ds volume
    · rw [pruned]
      intro primary left there here ⟨snap, mine, shared⟩
      obtain ⟨copied, had, rfl⟩ := Option.map_eq_some_iff.mp here
      obtain ⟨in_, own⟩ := mem_ours.mp mine
      obtain ⟨last, ends, both⟩ := kept.linked node copies ds volume primary copied there had
        ⟨snap, mem_ours.mpr ⟨(prune_sublist ..).mem in_, own⟩, shared⟩
      obtain ⟨newest, closes, named⟩ := Option.map_eq_some_iff.mp (fits ds member copied had).1
      have same : newest = last := Option.some.inj (closes.symm.trans (newest_ours ends (mem_ours.mp both).2))
      exact ⟨last, getLast_prune ends fun _ => .inl (same ▸ named), both⟩
  · rcases pool ds with same | ⟨_, member, pruned⟩
    · exact ⟨primary, same ▸ there, closes⟩
    · obtain ⟨first, had, rfl⟩ := Option.map_eq_some_iff.mp (pruned.symm.trans there)
      obtain ⟨top, last, keep⟩ := Option.map_eq_some_iff.mp (fits ds member first had).1
      exact ⟨first, had, last.trans ((newest_prune last keep).symm.trans closes)⟩
  · rcases pool ds with same | ⟨_, member, pruned⟩
    · exact before primary newest list there closes named (same ▸ here)
    · obtain ⟨copied, has, rfl⟩ := Option.map_eq_some_iff.mp (pruned.symm.trans here)
      have ends := before primary newest copied there closes named has
      have mine := (mem_ours.mp (List.mem_of_getLast? closes)).2
      obtain ⟨top, top_, keep⟩ := Option.map_eq_some_iff.mp (fits ds member copied has).1
      obtain rfl := Option.some.inj (top_.symm.trans (newest_ours ends mine))
      exact getLast_prune ends fun _ => .inl keep
  · rw [frame.1] at none_
    obtain ⟨config, foreign, absent⟩ := kept.vacant node none_
    refine ⟨frame.2.1 ▸ config, frame.2.2 ▸ foreign, fun ds member => ?_⟩
    have gone := absent ds member
    rcases pool ds with same | ⟨_, _, pruned⟩
    · rw [same, gone]
    · rw [pruned, gone]
      rfl

theorem Kept.snapped {datasets : List String} {snap : Snap} {value : PveNode} (kept : s.Kept vmid volumes)
    (fits : s.FitsSnapshot vmid node datasets snap) (taken : (s.nodes node).takeSnapshot datasets snap = some value) :
    (s.setNode node value).Kept vmid volumes := by
  unfold PveNode.takeSnapshot at taken
  split at taken
  · obtain rfl := Option.some.inj taken
    have listed : ∀ ds list, (if ds ∈ datasets then (s.at_ node ds).map (· ++ [snap]) else s.at_ node ds) = some list →
        s.at_ node ds = some list ∨ ds ∈ datasets ∧ ∃ before, s.at_ node ds = some before ∧ list = before ++ [snap] := by
      intro ds list there
      split at there
      · rename_i member
        obtain ⟨before, had, rfl⟩ := Option.map_eq_some_iff.mp there
        exact .inr ⟨member, before, had, rfl⟩
      · exact .inl there
    refine kept.changed (fun ds list there => ?_) (fun other ds list first apart_ there here x mine y also same => ?_)
      (fun acts other apart_ ds volume => ?_) (fun copies ds volume => ?_) (fun acts o open_ ds primary newest there closes named => ?_)
      (fun copies _ _ ds _ settled primary newest list there closes named here => ?_) fun none_ => ?_
    · rcases listed ds list there with before | ⟨member, before, had, rfl⟩
      · exact kept.rising node ds list before
      · refine rising_append.mpr ⟨kept.rising node ds before had, ?_, fun older mine newer also => ?_⟩
        · exact List.Pairwise.sublist (List.filter_sublist) (List.pairwise_singleton _ snap)
        · obtain ⟨here, ours_⟩ := mem_ours.mp also
          obtain rfl := List.mem_singleton.mp here
          obtain ⟨there_, old⟩ := mem_ours.mp mine
          exact (((fits ds member).1 ours_).2 node before had older there_).2 rfl old
    · obtain ⟨in_, ours_⟩ := mem_ours.mp mine
      rcases listed ds list there with before | ⟨member, before, had, rfl⟩
      · exact kept.named before here mine (mem_ours.mp also).1 same
      · rcases List.mem_append.mp in_ with old | new
        · exact kept.named had here (mem_ours.mpr ⟨old, ours_⟩) (mem_ours.mp also).1 same
        · obtain rfl := List.mem_singleton.mp new
          exact absurd same.symm (((fits ds member).1 ours_).2 other first here y (mem_ours.mp also).1).1
    · subst acts
      rintro list copied there here ⟨shared, mine, in_⟩
      obtain ⟨held, ours_⟩ := mem_ours.mp mine
      rcases listed ds list there with before | ⟨member, before, had, rfl⟩
      · exact kept.linked other apart_ ds volume list copied before here ⟨shared, mine, in_⟩
      · rcases List.mem_append.mp in_ with old | new
        · obtain ⟨last, ends, both⟩ := kept.linked other apart_ ds volume before copied had here ⟨shared, mine, old⟩
          exact ⟨last, ends, mem_ours.mpr ⟨List.mem_append_left _ (mem_ours.mp both).1, (mem_ours.mp both).2⟩⟩
        · obtain rfl := List.mem_singleton.mp new
          exact absurd rfl (((fits ds member).1 ours_).2 other copied here shared held).1
    · rintro list copied there here ⟨shared, mine, in_⟩
      obtain ⟨held, ours_⟩ := mem_ours.mp mine
      rcases listed ds copied here with before | ⟨member, before, had, rfl⟩
      · exact kept.linked node copies ds volume list copied there before ⟨shared, mine, in_⟩
      · rcases List.mem_append.mp held with old | new
        · exact absurd ⟨before, had, list, there, shared, mem_ours.mpr ⟨old, ours_⟩, in_⟩ ((fits ds member).2 copies)
        · obtain rfl := List.mem_singleton.mp new
          exact absurd rfl (((fits ds member).1 ours_).2 s.acting list there shared in_).1
    · rcases listed ds primary there with before | ⟨member, first, had, rfl⟩
      · exact ⟨primary, before, closes⟩
      · refine ⟨first, had, ?_⟩
        by_cases ours_ : isOurs snap.name vmid = true
        · have top := newest_ours (show (first ++ [snap]).getLast? = some snap by simp) ours_
          obtain rfl := Option.some.inj (closes.symm.trans top)
          exact absurd named.symm (((fits ds member).1 ours_).1 o (acts ▸ open_))
        · have same : ours (first ++ [snap]) vmid = ours first vmid := by simp [ours, ours_]
          exact same ▸ closes
    · rcases listed ds list here with before | ⟨member, copied, had, rfl⟩
      · exact settled primary newest list there closes named before
      · have ends := settled primary newest copied there closes named had
        obtain ⟨in_, ours_⟩ := mem_ours.mp (List.mem_of_getLast? closes)
        exact absurd ⟨copied, had, primary, there, newest, mem_ours.mpr ⟨List.mem_of_getLast? ends, ours_⟩, in_⟩ ((fits ds member).2 copies)
    · obtain ⟨config, foreign, absent⟩ := kept.vacant node none_
      refine ⟨config, foreign, fun ds member => ?_⟩
      have gone : s.at_ node ds = none := absent ds member
      show (if ds ∈ datasets then (s.at_ node ds).map (· ++ [snap]) else s.at_ node ds) = none
      rw [gone]
      split <;> rfl
  · cases taken

omit [DecidableEq ι] in
theorem Kept.grown {sender receiver : ι} {form : ZfsForm} {stream : Stream} {cut : Option Nat} {grown : List Snap}
    (kept : s.Kept vmid volumes) (own : (PveNode.asked form).vmid = vmid)
    (passed : (s.nodes receiver).receiveGate form = .ok (PveNode.asked form))
    (sent : (s.nodes sender).sends form = some stream)
    (grows : PveNode.Grown (s.at_ receiver (PveNode.asked form).dataset) stream cut grown) :
    Rising vmid grown ∧ ∀ x ∈ grown, ∃ other list, s.at_ other (PveNode.asked form).dataset = some list ∧ x ∈ list := by
  obtain ⟨source, there, sends⟩ := Option.bind_eq_some_iff.mp sent
  have rises := kept.rising sender _ source there
  rcases grows with ⟨_, rfl, _⟩ | ⟨base, list, some_, here, last, rfl⟩
  · refine ⟨?_, fun x member => ⟨sender, source, there, send_mem sends x member⟩⟩
    cases origin : (PveNode.asked form).base with
    | none =>
      rw [origin] at sends
      obtain ⟨snap, member, _, rfl⟩ := send_full sends
      exact rises.sublist (List.singleton_sublist.mpr member)
    | some fr =>
      rw [origin] at sends
      obtain ⟨front, first, middle, end_, tail, rfl, _, _, rfl⟩ := send_incremental sends
      apply rises.sublist
      refine (List.Sublist.cons first ?_).trans (List.sublist_append_right front _)
      exact (List.Sublist.refl middle).append (List.singleton_sublist.mpr List.mem_cons_self)
  · cases origin : (PveNode.asked form).base with
    | none =>
      rw [origin] at sends
      obtain ⟨_, _, _, rfl⟩ := send_full sends
      exact absurd some_ nofun
    | some fr =>
      rw [origin] at sends
      obtain ⟨front, first, middle, end_, tail, rfl, named, _, rfl⟩ := send_incremental sends
      obtain rfl : first = base := Option.some.inj some_
      have ends : isOurs first.name vmid = true := by
        have ours_ := (PveNode.fieldsGate_ok.mp (PveNode.receiveGate_ok.mp passed).1).2.2.2.2.2.2 fr origin
        rw [named, ← own]
        exact ours_
      have arrives : (Stream.arrived ⟨some first, middle ++ [end_]⟩ cut).Sublist (middle ++ end_ :: tail) :=
        (arrived_front _ cut).sublist.trans ((List.Sublist.refl middle).append (List.singleton_sublist.mpr List.mem_cons_self))
      have after_ := (rising_append.mp rises).2.1
      refine ⟨rising_append.mpr ⟨kept.rising receiver _ list here, ?_, fun older mine newer also => ?_⟩, fun x member => ?_⟩
      · exact after_.sublist (arrives.trans (List.sublist_cons_self first _))
      · obtain ⟨in_, ours_⟩ := mem_ours.mp also
        have joined : Rising vmid ([first] ++ (middle ++ end_ :: tail)) := after_
        have above : snapshotTs first.name < snapshotTs newer.name :=
          (rising_append.mp joined).2.2 first (mem_ours.mpr ⟨List.mem_singleton.mpr rfl, ends⟩) newer
            (mem_ours.mpr ⟨arrives.mem in_, ours_⟩)
        rcases (kept.rising receiver _ list here).last last mine ends with rfl | below
        · exact above
        · exact Nat.lt_trans below above
      · rcases List.mem_append.mp member with old | new
        · exact ⟨receiver, list, here, old⟩
        · refine ⟨sender, _, there, ?_⟩
          exact List.mem_append_right front (List.mem_cons_of_mem first (arrives.mem new))

omit [DecidableEq ι] in
theorem grown_last {receiver : ι} {form : ZfsForm} {stream : Stream} {cut : Option Nat} {grown : List Snap}
    (grows : PveNode.Grown (s.at_ receiver (PveNode.asked form).dataset) stream cut grown)
    (some_ : stream.snaps ≠ [])
    (fits : (stream.base = none ∨ ∃ base, stream.base = some base ∧
        (s.nodes receiver).newest (PveNode.asked form).dataset = some base) →
      ∀ last, (stream.arrived cut).getLast? = some last →
        ∃ primary, s.at_ s.acting (PveNode.asked form).dataset = some primary ∧ last ∈ ours primary vmid) :
    stream.arrived cut = [] ∧ s.at_ receiver (PveNode.asked form).dataset = some grown ∨
      ∃ last primary, (stream.arrived cut).getLast? = some last ∧ grown.getLast? = some last ∧
        s.at_ s.acting (PveNode.asked form).dataset = some primary ∧ last ∈ ours primary vmid := by
  rcases grows with ⟨none_, rfl, whole⟩ | ⟨base, list, origin, here, last, rfl⟩
  · rw [whole] at fits
    have ends := List.getLast?_eq_some_getLast some_
    obtain ⟨primary, there, member⟩ := fits (.inl none_) _ ends
    exact .inr ⟨_, primary, by rw [whole]; exact ends, ends, there, member⟩
  · cases arrived : stream.arrived cut with
    | nil =>
      rw [List.append_nil]
      exact .inl ⟨rfl, here⟩
    | cons first rest =>
      have ends := List.getLast?_eq_some_getLast (show first :: rest ≠ [] from nofun)
      have newest : (s.nodes receiver).newest (PveNode.asked form).dataset = some base := by
        unfold PveNode.newest
        rw [show (s.nodes receiver).pool _ = some list from here]
        exact last
      rw [arrived] at fits
      obtain ⟨primary, there, member⟩ := fits (.inr ⟨base, origin, newest⟩) _ ends
      refine .inr ⟨_, primary, ends, ?_, there, member⟩
      rw [List.getLast?_append, ends]
      rfl

omit [DecidableEq ι] in
/-- The last snapshot of ours has the latest time. -/
theorem newest_latest {list : List Snap} {newest snap : Snap} (rising : Rising vmid list) (closes : (ours list vmid).getLast? = some newest)
    (mine : snap ∈ ours list vmid) : snap = newest ∨ snapshotTs snap.name < snapshotTs newest.name := by
  have twice : ours (ours list vmid) vmid = ours list vmid := by simp [ours]
  have rises : Rising vmid (ours list vmid) := by
    unfold Rising
    rw [twice]
    exact rising
  exact rises.last closes (twice.symm ▸ mine) (mem_ours.mp (List.mem_of_getLast? closes)).2

/-- A list that a request leaves on its dataset: as it has grown by what arrived, or pruned by the
commit, which leaves its last. -/
structure Received (s : PveFleet ι) (sender receiver : ι) (form : ZfsForm) (fates : PveNode.ReceiveFates) (stream : Stream)
    (grown list : List Snap) : Prop where
  passed : (s.nodes receiver).receiveGate form = .ok (PveNode.asked form)
  sent : (s.nodes sender).sends form = some stream
  grows : PveNode.Grown (s.at_ receiver (PveNode.asked form).dataset) stream fates.cut grown
  sub : list.Sublist grown
  whole : stream.arrived fates.cut = [] → list = grown
  ends : ∀ last, grown.getLast? = some last → (stream.arrived fates.cut).getLast? = some last → list.getLast? = some last

section
variable {sender receiver : ι} {form : ZfsForm} {fates : PveNode.ReceiveFates} {stream : Stream} {grown list : List Snap}

omit [DecidableEq ι] in
/-- Each dataset is as before, or gone, or it is the request's and something was received. -/
theorem received_pool (s : PveFleet ι) (sender receiver : ι) (form : ZfsForm) (fates : PveNode.ReceiveFates) (ds : String) :
    ((s.nodes receiver).wolfhaReceiveZfs form ((s.nodes sender).sends form) fates).1.pool ds = s.at_ receiver ds ∨
      ((s.nodes receiver).wolfhaReceiveZfs form ((s.nodes sender).sends form) fates).1.pool ds = none ∨
      ds = (PveNode.asked form).dataset ∧ ∃ stream grown list, s.Received sender receiver form fates stream grown list ∧
        ((s.nodes receiver).wolfhaReceiveZfs form ((s.nodes sender).sends form) fates).1.pool ds = some list := by
  by_cases here : ds = (PveNode.asked form).dataset
  · subst here
    rcases PveNode.receiveZfs_dataset (s.nodes receiver) form ((s.nodes sender).sends form) fates with
      same | gone | ⟨stream, grown, passed, sent, grows, whole | ⟨uncut, fails, pruned⟩⟩
    · exact .inl same
    · exact .inr (.inl gone)
    · exact .inr (.inr ⟨rfl, stream, grown, grown, ⟨passed, sent, grows, .refl grown, fun _ => rfl, fun _ ends _ => ends⟩, whole⟩)
    · refine .inr (.inr ⟨rfl, stream, grown, _, ⟨passed, sent, grows, prune_sublist .., fun nothing => ?_, fun last ends arrived => ?_⟩, pruned⟩)
      · rw [uncut] at nothing
        exact absurd nothing (PveNode.sends_filled sent)
      · obtain ⟨source, _, sends⟩ := Option.bind_eq_some_iff.mp sent
        obtain ⟨final, closes, target⟩ := send_last sends
        rw [uncut] at arrived
        obtain rfl := Option.some.inj (closes.symm.trans arrived)
        exact getLast_prune ends fun _ => .inl target
  · exact (PveNode.receiveZfs_other (s.nodes receiver) form ((s.nodes sender).sends form) fates here).imp_right fun cleared => .inl cleared.1

omit [DecidableEq ι] in
theorem Received.last (received : s.Received sender receiver form fates stream grown list) (fits : s.FitsStream vmid sender receiver form fates) :
    stream.arrived fates.cut = [] ∧ s.at_ receiver (PveNode.asked form).dataset = some list ∨
      ∃ last primary, (stream.arrived fates.cut).getLast? = some last ∧ list.getLast? = some last ∧
        s.at_ s.acting (PveNode.asked form).dataset = some primary ∧ last ∈ ours primary vmid := by
  have filled : stream.snaps ≠ [] := PveNode.sends_filled received.sent
  rcases grown_last received.grows filled ((fits _ received.passed).2.2.1 stream received.sent) with
    ⟨nothing, same⟩ | ⟨last, primary, arrived, closes, has, member⟩
  · obtain rfl := received.whole nothing
    exact .inl ⟨nothing, same⟩
  · exact .inr ⟨last, primary, arrived, received.ends last closes arrived, has, member⟩

omit [DecidableEq ι] in
theorem Kept.received_linked (kept : s.Kept vmid volumes) (received : s.Received sender receiver form fates stream grown list)
    (fits : s.FitsStream vmid sender receiver form fates) (copies : receiver ≠ s.acting) (volume : (PveNode.asked form).dataset ∈ volumes) :
    Linked vmid (s.at_ s.acting (PveNode.asked form).dataset) (some list) := by
  intro primary copied there here shared
  obtain rfl := Option.some.inj here
  rcases received.last fits with ⟨_, same⟩ | ⟨last, first, _, ends, has, member⟩
  · exact kept.linked receiver copies _ volume primary list there same shared
  · obtain rfl := Option.some.inj (there.symm.trans has)
    exact ⟨last, ends, member⟩

omit [DecidableEq ι] in
/-- What arrives after the primary has taken a round's snapshot ends with that one. -/
theorem Kept.received_settled {o : OpenRound ι} {primary : List Snap} {newest : Snap} (kept : s.Kept vmid volumes)
    (own : (PveNode.asked form).vmid = vmid) (received : s.Received sender receiver form fates stream grown list)
    (fits : s.FitsStream vmid sender receiver form fates) (open_ : o ∈ s.rounds s.acting)
    (confirmed : (receiver, (PveNode.asked form).dataset) ∈ o.confirmed)
    (settled : s.Settled vmid o.round.snapshot receiver (PveNode.asked form).dataset)
    (there : s.at_ s.acting (PveNode.asked form).dataset = some primary) (closes : (ours primary vmid).getLast? = some newest)
    (named : newest.name = o.round.snapshot) : list.getLast? = some newest := by
  rcases received.last fits with ⟨_, same⟩ | ⟨last, first, arrived, ends, has, member⟩
  · exact settled primary newest list there closes named same
  obtain rfl := Option.some.inj (there.symm.trans has)
  have latest := newest_latest (kept.rising s.acting _ primary there) closes member
  suffices same : last = newest from same ▸ ends
  rcases received.grows with ⟨none_, rfl, full⟩ | ⟨base, copied, origin, had, onto, rfl⟩
  · -- A full stream carries the snapshot it is asked for, and that is no older than the round.
    obtain ⟨source, _, sends⟩ := Option.bind_eq_some_iff.mp received.sent
    obtain ⟨final, final_, target⟩ := send_last sends
    rw [full] at arrived
    obtain rfl := Option.some.inj (final_.symm.trans arrived)
    have late := (fits _ received.passed).2.1 o open_ confirmed
    rw [← named, ← target] at late
    exact latest.resolve_right (Nat.not_lt.mpr late)
  · -- What follows the newest on a copy is later than it, and the primary has nothing later.
    have before := settled primary newest copied there closes named had
    obtain rfl := Option.some.inj (onto.symm.trans before)
    have own_ := (mem_ours.mp (List.mem_of_getLast? closes)).2
    have later := (rising_append.mp (kept.grown own received.passed received.sent received.grows).1).2.2 base
      (mem_ours.mpr ⟨List.mem_of_getLast? onto, own_⟩) last
      (mem_ours.mpr ⟨List.mem_of_getLast? arrived, (mem_ours.mp member).2⟩)
    exact latest.resolve_right (Nat.lt_asymm later)

omit [DecidableEq ι] in
/-- Where there was no entry, a stream leaves one, or nothing. -/
theorem Kept.received_vacant (kept : s.Kept vmid volumes) (own : (PveNode.asked form).vmid = vmid)
    (fits : s.FitsStream vmid sender receiver form fates)
    (none_ : ((s.nodes receiver).wolfhaReceiveZfs form ((s.nodes sender).sends form) fates).1.store.get vmid = none) :
    ((s.nodes receiver).wolfhaReceiveZfs form ((s.nodes sender).sends form) fates).1.configs vmid = false ∧
      ((s.nodes receiver).wolfhaReceiveZfs form ((s.nodes sender).sends form) fates).1.foreignConfigs vmid = [] ∧
      ∀ ds ∈ volumes, ((s.nodes receiver).wolfhaReceiveZfs form ((s.nodes sender).sends form) fates).1.pool ds = none := by
  have host := PveNode.receiveZfs_host (s.nodes receiver) form ((s.nodes sender).sends form) fates
  have gone : (s.nodes receiver).store.get vmid = none := by
    rcases PveNode.receiveZfs_entry (s.nodes receiver) form ((s.nodes sender).sends form) fates with same | ⟨now, recorded⟩
    · rw [← same]
      exact none_
    · rw [recorded, ← own, PveNode.get_receivedStore] at none_
      exact absurd none_ nofun
  obtain ⟨config, foreign, absent⟩ := kept.vacant receiver gone
  have vacant := PveNode.receiveZfs_vacant (s.nodes receiver) form ((s.nodes sender).sends form) fates (own.symm ▸ gone)
    (fun _ => PveNode.sends_filled) fun plan passed => (fits plan passed).2.2.2 gone
  rcases vacant with there | ⟨pool, configs, _⟩
  · exact absurd (own.symm ▸ none_) there
  · refine ⟨configs ▸ config, host.foreignConfigs ▸ foreign, fun ds member => ?_⟩
    rw [pool]
    exact absent ds member

theorem Kept.streamed (kept : s.Kept vmid volumes) (own : Auth.trim form.container = vmid) (fits : s.FitsStream vmid sender receiver form fates) :
    (s.setNode receiver ((s.nodes receiver).wolfhaReceiveZfs form ((s.nodes sender).sends form) fates).1).Kept vmid volumes := by
  have datasets := s.received_pool sender receiver form fates
  have vacant := kept.received_vacant own fits
  generalize ((s.nodes receiver).wolfhaReceiveZfs form ((s.nodes sender).sends form) fates).1 = value at *
  refine kept.changed (fun ds list there => ?_) (fun other ds list first _ there here x mine y also same => ?_)
    (fun acts other apart_ ds volume => ?_) (fun copies ds volume => ?_) (fun acts o open_ ds primary newest there closes _ => ?_)
    (fun copies o open_ ds confirmed settled primary newest list there closes named here => ?_) vacant
  · rcases datasets ds with same | gone | ⟨rfl, stream, grown, left, received, is_⟩
    · exact kept.rising receiver ds list (same ▸ there)
    · exact absurd (gone.symm.trans there) nofun
    · obtain rfl := Option.some.inj (is_.symm.trans there)
      exact (kept.grown own received.passed received.sent received.grows).1.sublist received.sub
  · rcases datasets ds with before | gone | ⟨rfl, stream, grown, left, received, is_⟩
    · exact kept.named (before ▸ there) here mine (mem_ours.mp also).1 same
    · exact absurd (gone.symm.trans there) nofun
    · obtain rfl := Option.some.inj (is_.symm.trans there)
      obtain ⟨in_, ours_⟩ := mem_ours.mp mine
      obtain ⟨owner, source, had, member⟩ := (kept.grown own received.passed received.sent received.grows).2 x (received.sub.mem in_)
      exact kept.named had here (mem_ours.mpr ⟨member, ours_⟩) (mem_ours.mp also).1 same
  · rcases datasets ds with same | gone | ⟨_, _, _, _, received, _⟩
    · rw [same, acts]
      exact kept.linked other (acts ▸ apart_) ds volume
    · rw [gone]
      exact none_linked
    · exact absurd acts (fits _ received.passed).1
  · rcases datasets ds with same | gone | ⟨rfl, stream, grown, left, received, is_⟩
    · rw [same]
      exact kept.linked receiver copies ds volume
    · rw [gone]
      exact linked_none
    · rw [is_]
      exact kept.received_linked received fits copies volume
  · rcases datasets ds with same | gone | ⟨_, _, _, _, received, _⟩
    · exact ⟨primary, same ▸ there, closes⟩
    · exact absurd (gone.symm.trans there) nofun
    · exact absurd acts (fits _ received.passed).1
  · rcases datasets ds with same | gone | ⟨rfl, stream, grown, left, received, is_⟩
    · exact settled primary newest list there closes named (same ▸ here)
    · exact absurd (gone.symm.trans here) nofun
    · obtain rfl := Option.some.inj (is_.symm.trans here)
      exact kept.received_settled own received fits open_ confirmed settled there closes named

end

/-- A stream that succeeds leaves the copy at the snapshot that it is asked for. -/
theorem Kept.confirmed {sender receiver : ι} {form : ZfsForm} {fates : PveNode.ReceiveFates} {value : PveNode}
    (kept : (s.setNode receiver value).Kept vmid volumes) (apart_ : sender ≠ receiver)
    (outcome : (s.nodes receiver).wolfhaReceiveZfs form ((s.nodes sender).sends form) fates = (value, .ok ())) :
    ((s.setNode receiver value).setRounds sender ((s.rounds sender).map
      (.confirm (PveNode.asked form).snapshot (receiver, (PveNode.asked form).dataset)))).Kept vmid volumes := by
  refine kept.rounded fun o open_ peer ds confirmed => ?_
  rw [acting_setNode] at *
  by_cases acts : sender = s.acting
  · subst acts
    rw [Function.update_self] at open_
    obtain ⟨before, there, rfl⟩ := List.mem_map.mp open_
    unfold OpenRound.confirm at confirmed ⊢
    split at confirmed
    · rename_i named
      rw [if_pos named]
      rcases List.mem_cons.mp confirmed with same | earlier
      · obtain ⟨rfl, rfl⟩ := Prod.mk.inj same
        refine ⟨Ne.symm apart_, fun primary newest list first closes title here => ?_⟩
        obtain ⟨stream, last, copied, sent, in_, pool, ends, target⟩ :=
          PveNode.receiveZfs_done (s.nodes peer) form ((s.nodes s.acting).sends form) fates (by rw [outcome])
            fun _ sent => (Option.bind_eq_some_iff.mp sent).elim fun _ sends => send_last sends.2
        rw [outcome] at pool
        rw [at_setNode] at here
        obtain rfl := Option.some.inj (pool.symm.trans here)
        obtain ⟨source, had, sends⟩ := Option.bind_eq_some_iff.mp sent
        have front : (s.setNode peer value).at_ s.acting (PveNode.asked form).dataset = some source :=
          (at_setNode_other value _ apart_).trans had
        obtain rfl := Option.some.inj (front.symm.trans first)
        have same := kept.named front front (List.mem_of_getLast? closes) (send_mem sends last in_) (title.trans (named.trans target.symm))
        exact same ▸ ends
      · exact kept.settled before there peer ds earlier
    · rename_i other
      rw [if_neg other]
      exact kept.settled before there peer ds confirmed
  · rw [Function.update_of_ne (Ne.symm acts)] at open_
    exact kept.settled o open_ peer ds confirmed

theorem Kept.takenOver (kept : s.Kept vmid volumes) (fits : s.FitsTakeOver vmid volumes node) :
    Kept vmid { s with acting := node } volumes := by
  refine ⟨kept.rising, kept.single, fun other apart_ ds volume => ?_, fun o open_ => ?_, kept.vacant⟩
  · intro list copied there here ⟨snap, mine, shared⟩
    obtain ⟨list', same, primary, has, missed, closed, common⟩ := fits.2 ds volume other apart_ ⟨copied, here, list, there, snap, mine, shared⟩
    obtain rfl := Option.some.inj (there.symm.trans same)
    obtain ⟨in_, own⟩ := mem_ours.mp mine
    have ends : ∃ last, copied.getLast? = some last ∧ last ∈ ours primary vmid := by
      by_cases acts : other = s.acting
      · subst acts
        obtain rfl := Option.some.inj (Eq.trans (Eq.symm has) here)
        have filled := List.getLast?_eq_some_getLast (List.ne_nil_of_mem in_)
        exact ⟨_, filled, mem_ours.mpr ⟨List.mem_of_getLast? filled, closed _ filled⟩⟩
      · obtain ⟨copied', also, primary', front, x, ours_, held⟩ := common
        obtain rfl := Option.some.inj (here.symm.trans also)
        obtain rfl := Option.some.inj front
        exact kept.linked other acts ds volume primary copied has here ⟨x, ours_, held⟩
    obtain ⟨last, ends, both⟩ := ends
    have later : snapshotTs snap.name ≤ snapshotTs last.name := by
      rcases (kept.rising other ds copied here).last ends mine (mem_ours.mp both).2 with rfl | below
      · exact Nat.le_refl _
      · exact Nat.le_of_lt below
    exact ⟨last, ends, mem_ours.mpr ⟨missed snap (mem_ours.mpr ⟨shared, own⟩) last both later, (mem_ours.mp both).2⟩⟩
  · rw [show s.rounds node = [] from fits.1] at open_
    exact absurd open_ List.not_mem_nil

theorem Kept.step {event : FleetEvent ι} (kept : s.Kept vmid volumes) (fits : s.Fits vmid volumes event)
    (stepped : s.step vmid event = some after) : after.Kept vmid volumes := by
  cases event with
  | snapshot node datasets snap =>
    obtain ⟨value, taken, rfl⟩ := Option.map_eq_some_iff.mp stepped
    exact kept.snapped fits taken
  | begin_ node datasets snap =>
    obtain ⟨value, taken, rfl⟩ := Option.map_eq_some_iff.mp stepped
    have snapped := kept.snapped fits taken
    refine snapped.rounded fun o open_ peer ds confirmed => ?_
    by_cases own : s.acting = node
    · rw [acting_setNode, own, Function.update_self] at open_
      rcases List.mem_cons.mp open_ with rfl | there
      · exact absurd confirmed List.not_mem_nil
      · exact snapped.settled o (own.symm ▸ there) peer ds confirmed
    · rw [acting_setNode, Function.update_of_ne own] at open_
      exact snapped.settled o open_ peer ds confirmed
  | stream sender receiver form fates told =>
    simp only [PveFleet.step] at stepped
    split at stepped
    · exact absurd stepped nofun
    · rename_i fine
      obtain ⟨apart_, named⟩ := not_or.mp fine
      have streamed := kept.streamed (not_not.mp named) fits
      split at stepped
      · rename_i heard
        obtain rfl := Option.some.inj stepped
        refine streamed.confirmed apart_ (Prod.ext rfl ?_)
        cases answer : ((s.nodes receiver).wolfhaReceiveZfs form ((s.nodes sender).sends form) fates).2 with
        | error e =>
          rw [answer] at heard
          simp [Except.isOk, Except.toBool] at heard
        | ok done => rfl
      · obtain rfl := Option.some.inj stepped
        exact streamed
  | finish node round replicas fails =>
    simp only [PveFleet.step] at stepped
    split at stepped
    · exact absurd stepped nofun
    · rename_i o found
      obtain rfl := Option.some.inj stepped
      obtain rfl : o.round = round := by simpa using List.find?_some found
      have finished := kept.finished fails (List.mem_of_find?_eq_some found) fits
      refine finished.rounded fun other open_ peer ds confirmed => ?_
      by_cases own : s.acting = node
      · rw [acting_setNode, own, Function.update_self] at open_
        exact finished.settled other (own.symm ▸ List.mem_of_mem_filter open_) peer ds confirmed
      · rw [acting_setNode, Function.update_of_ne own] at open_
        exact finished.settled other open_ peer ds confirmed
  | takeOver node =>
    obtain rfl := Option.some.inj stepped
    exact kept.takenOver fits
  | bookkeep node running change =>
    obtain rfl := Option.some.inj stepped
    exact kept.booked running change

end PveFleet
end WolfHa
