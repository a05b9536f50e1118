import WolfStack.WolfHa.ZfsPool
import WolfStack.Auth.ClusterSecret

/-! The standby's side of a Proxmox container's replication: what `pve_prepare_receive` checks
before a stream is read, and what `pve_commit_receive` records after it. -/

namespace WolfHa
open ZfsSend

structure PveNode where
  name : String
  isProxmox : Bool
  haveZfs : Bool
  pool : Pool
  running : String → Bool
  /-- Which containers have a config below /etc/pve/lxc. -/
  configs : String → Bool
  /-- Configs of that id anywhere else in the cluster's /etc/pve/nodes. -/
  foreignConfigs : String → List String
  store : HaStore

/-- The text fields of a stream's request. A primary that cannot be read is `some none`. -/
structure ZfsForm where
  container : String
  dataset : String
  snapshot : String
  base : String
  config : String
  primary : Option (Option HaPeer)
  haMeta : Option HaMeta
  deriving DecidableEq, Repr

structure PveReceivePlan where
  vmid : String
  dataset : String
  snapshot : String
  base : Option String
  deriving DecidableEq, Repr

def pveConfigPath (vmid : String) : String := s!"/etc/pve/lxc/{vmid}.conf"

namespace PveNode
variable (node : PveNode) (f : ZfsForm)

def vmidConfigPaths (vmid : String) : List String :=
  (if node.configs vmid then [s!"/etc/pve/nodes/{node.name}/lxc/{vmid}.conf"] else []) ++ node.foreignConfigs vmid

def datasetExists (dataset : String) : Bool := (node.pool dataset).isSome

def listOurs (dataset vmid : String) : List String := (ours ((node.pool dataset).getD []) vmid).map (·.name)

def setDataset (dataset : String) (list : Option (List Snap)) : PveNode :=
  { node with pool := Function.update node.pool dataset list }

/-- `zfs destroy -r`: what is below the dataset goes with it. -/
def destroyDataset (dataset : String) : PveNode :=
  { node with pool := fun other => if other = dataset ∨ startsWith other (dataset ++ "/") then none else node.pool other }

def entryGate (vmid : String) : Except String Unit :=
  match node.store.get vmid with
  | some e =>
    if e.role = .primary ∧ e.stale = false then
      .error s!"'{vmid}' is the ACTIVE primary here — refusing a stream that would overwrite it"
    else if e.kind ≠ .pveContainer then
      .error s!"'{vmid}' is WolfHA-managed here as a {e.kind.label}, not a Proxmox container"
    else .ok ()
  | none => if f.primary.isNone then .error "a first stream must carry the primary's peer identity" else .ok ()

def vacancyGate (vmid dataset : String) : Except String Unit :=
  if (node.store.get vmid).isSome then
    .ok ()
  else
    let taken := node.vmidConfigPaths vmid
    if taken ≠ [] then
      let listed := ", ".intercalate taken
      .error s!"VMID {vmid} is already in use on this Proxmox node or cluster ({listed}) and is not a WolfHA copy — refusing to overwrite it"
    else if node.datasetExists dataset then
      .error s!"dataset {dataset} already exists here and is not a WolfHA copy — refusing to overwrite it"
    else .ok ()

def baseGate (vmid : String) : Option String → Except String Unit
  | none => .ok ()
  | some fr =>
    if isOurs fr vmid = false then
      .error s!"incremental base {fr.quote} is not a WolfHA replication snapshot for {vmid}"
    else .ok ()

def fieldsGate : Except String PveReceivePlan :=
  let vmid := Auth.trim f.container
  let dataset := Auth.trim f.dataset
  let snapshot := Auth.trim f.snapshot
  let base := if Auth.trim f.base = "" then none else some (Auth.trim f.base)
  if node.isProxmox = false then
    .error "this node is not a Proxmox host, so it cannot hold a Proxmox container"
  else if node.haveZfs = false then
    .error "ZFS is not installed on this node"
  else if isVmid vmid = false then
    .error s!"invalid container id {vmid.quote}"
  else if isSafeDataset dataset = false then
    .error s!"invalid dataset {dataset.quote}"
  else if isOurs snapshot vmid = false then
    .error s!"snapshot {snapshot.quote} is not a WolfHA replication snapshot for {vmid}"
  else
    match baseGate vmid base with
    | .error e => .error e
    | .ok () => .ok ⟨vmid, dataset, snapshot, base⟩

def receiveGate : Except String PveReceivePlan :=
  match node.fieldsGate f with
  | .error e => .error e
  | .ok plan =>
    match node.entryGate f plan.vmid with
    | .error e => .error e
    | .ok () =>
      if node.running plan.vmid then
        .error s!"container {plan.vmid} is running here — refusing to overwrite a live volume"
      else
        match node.vacancyGate plan.vmid plan.dataset with
        | .error e => .error e
        | .ok () => .ok plan

/-- A full stream needs a parent to receive into. -/
def parentGate (dataset : String) : Except String Unit :=
  match parentDataset dataset with
  | some p =>
    if node.datasetExists p then .ok ()
    else .error s!"this node has no dataset '{p}' to receive into — the standby needs the primary's pool layout"
  | none => .error s!"'{dataset}' has no parent dataset"

/-- `pve_prepare_receive`. A full stream clears the old copy first, if it can be destroyed. -/
def pvePrepareReceive (destroyed : Except String Unit) : PveNode × Except String PveReceivePlan :=
  match node.receiveGate f with
  | .error e => (node, .error e)
  | .ok plan =>
    match plan.base with
    | none =>
      match node.datasetExists plan.dataset, destroyed with
      | true, .error e => (node, .error s!"could not clear the old copy of {plan.dataset} for re-seeding: {e}")
      | _, _ =>
        let cleared := if node.datasetExists plan.dataset then node.destroyDataset plan.dataset else node
        match cleared.parentGate plan.dataset with
        | .error e => (cleared, .error e)
        | .ok () => (cleared, .ok plan)
    | some fr =>
      if node.datasetExists plan.dataset = false then
        (node, .error (zfsNeedsSeed ++ s!": no copy of {plan.dataset} on this node — a full stream is needed"))
      else if (node.listOurs plan.dataset plan.vmid).contains fr = false then
        (node, .error (zfsNeedsSeed ++
          s!": this node's copy of {plan.dataset} does not hold the base snapshot {fr} — a full stream is needed"))
      else (node, .ok plan)

/-- `zfs receive` of a stream into the plan's dataset. -/
def zfsReceive (plan : PveReceivePlan) (stream : Stream) (cut : Option Nat) : PveNode × Bool :=
  let received := receive (node.pool plan.dataset) stream cut
  (node.setDataset plan.dataset received.1, received.2)

def receivedEntry (plan : PveReceivePlan) (now : Nat) (e : HaEntry) : HaEntry :=
  let e : HaEntry := { e with lastDeltaAt := now, stale := false }
  let e : HaEntry := match f.haMeta with
    | some m => m.applyTo e
    | none => e
  let e : HaEntry := match f.primary.bind id with
    | some p => if e.role = .replica then { e with primary := some p } else e
    | none => e
  if plan.dataset ∈ e.zfsDatasets then e else { e with zfsDatasets := e.zfsDatasets ++ [plan.dataset] }

def receivedStore (plan : PveReceivePlan) (now : Nat) : HaStore :=
  let store := if (node.store.get plan.vmid).isNone then
      node.store.push (.blank plan.vmid .pveContainer (f.primary.bind id))
    else node.store
  store.modify plan.vmid (receivedEntry f plan now)

structure CommitFates where
  configWritten : Except String Unit
  destroyFails : String → Bool
  saved : Except String Unit

/-- `pve_commit_receive`. -/
def pveCommitReceive (plan : PveReceivePlan) (now : Nat) (fates : CommitFates) : PveNode × Except String Unit :=
  let withConfig : Except String PveNode :=
    if Auth.trim f.config = "" then
      .ok node
    else
      match fates.configWritten with
      | .error e => .error ("write " ++ pveConfigPath plan.vmid ++ ": " ++ e)
      | .ok () => .ok { node with configs := Function.update node.configs plan.vmid true }
  match withConfig with
  | .error e => (node, .error e)
  | .ok configured =>
    let pruned := match node.pool plan.dataset with
      | some list => configured.setDataset plan.dataset (some (prune list plan.vmid plan.snapshot fates.destroyFails))
      | none => configured
    match fates.saved with
    | .error e => (pruned, .error e)
    | .ok () => ({ pruned with store := node.receivedStore f plan now }, .ok ())

/-- How a request to receive a stream turns out beyond what is checked: whether the old copy
can be destroyed, whether the stream is cut off, and, unless the node stops first, the commit. -/
structure ReceiveFates where
  destroyed : Except String Unit
  cut : Option Nat
  committed : Option (Nat × CommitFates)

/-- `wolfha_receive_zfs`, with what the primary's `zfs send` puts into the stream. -/
def wolfhaReceiveZfs (sent : Option Stream) (fates : ReceiveFates) : PveNode × Except String Unit :=
  match node.pvePrepareReceive f fates.destroyed with
  | (prepared, .error e) => (prepared, .error e)
  | (prepared, .ok plan) =>
    match sent with
    | none => (prepared, .error s!"zfs receive of {plan.dataset} failed")
    | some stream =>
      match prepared.zfsReceive plan stream fates.cut with
      | (received, false) => (received, .error s!"zfs receive of {plan.dataset} failed")
      | (received, true) =>
        match fates.committed with
        | none => (received, .error "the standby stopped")
        | some (now, commit) =>
          match received.pveCommitReceive f plan now commit with
          | (recorded, .error e) => (recorded, .error s!"stream received but the standby could not be recorded: {e}")
          | (recorded, .ok ()) => (recorded, .ok ())

variable {node : PveNode} {f : ZfsForm} {plan : PveReceivePlan} {destroyed : Except String Unit} {fr : String}

theorem unless_refused {α : Type} {wrong : Prop} [Decidable wrong] {e : String} {rest : Except String α} {value : α} :
    (if wrong then .error e else rest) = .ok value ↔ ¬wrong ∧ rest = .ok value := by
  by_cases refused : wrong
  · simp [refused]
  · simp [refused]

theorem baseGate_ok {vmid : String} {base : Option String} :
    baseGate vmid base = .ok () ↔ ∀ fr, base = some fr → isOurs fr vmid = true := by
  cases base with
  | none => simp [baseGate]
  | some fr =>
    rw [baseGate, unless_refused]
    simp

def asked (f : ZfsForm) : PveReceivePlan where
  vmid := Auth.trim f.container
  dataset := Auth.trim f.dataset
  snapshot := Auth.trim f.snapshot
  base := if Auth.trim f.base = "" then none else some (Auth.trim f.base)

theorem fieldsGate_ok : node.fieldsGate f = .ok plan ↔
    plan = asked f ∧ node.isProxmox = true ∧ node.haveZfs = true ∧ isVmid plan.vmid = true ∧
      isSafeDataset plan.dataset = true ∧ isOurs plan.snapshot plan.vmid = true ∧
      ∀ fr, plan.base = some fr → isOurs fr plan.vmid = true := by
  unfold fieldsGate
  dsimp only
  simp only [unless_refused, Bool.not_eq_false]
  constructor
  · intro ⟨proxmox, zfs, vmid, dataset, snapshot, rest⟩
    split at rest
    · exact absurd rest nofun
    · rename_i base
      obtain rfl := Except.ok.inj rest
      exact ⟨rfl, proxmox, zfs, vmid, dataset, snapshot, baseGate_ok.mp base⟩
  · rintro ⟨rfl, proxmox, zfs, vmid, dataset, snapshot, base⟩
    refine ⟨proxmox, zfs, vmid, dataset, snapshot, ?_⟩
    have passed := baseGate_ok.mpr base
    unfold asked at passed
    rw [passed]
    rfl

theorem receiveGate_ok : node.receiveGate f = .ok plan ↔
    node.fieldsGate f = .ok plan ∧ node.entryGate f plan.vmid = .ok () ∧ node.running plan.vmid = false ∧
      node.vacancyGate plan.vmid plan.dataset = .ok () := by
  unfold receiveGate
  cases fields : node.fieldsGate f with
  | error e => simp
  | ok other =>
    dsimp only
    cases entry : node.entryGate f other.vmid with
    | error e =>
      refine ⟨nofun, fun ⟨same, passed, _⟩ => ?_⟩
      obtain rfl := Except.ok.inj same
      exact absurd (entry.symm.trans passed) nofun
    | ok _ =>
      dsimp only
      rw [unless_refused]
      cases vacancy : node.vacancyGate other.vmid other.dataset with
      | error e =>
        refine ⟨fun passed => absurd passed.2 nofun, fun ⟨same, _, _, passed⟩ => ?_⟩
        obtain rfl := Except.ok.inj same
        exact absurd (vacancy.symm.trans passed) nofun
      | ok _ =>
        constructor
        · intro ⟨stopped, same⟩
          obtain rfl := Except.ok.inj same
          exact ⟨rfl, entry, by simpa using stopped, vacancy⟩
        · intro ⟨same, _, stopped, _⟩
          obtain rfl := Except.ok.inj same
          exact ⟨by simp [stopped], rfl⟩

/-! ### What a request changes -/

theorem prepare_cases (node : PveNode) (f : ZfsForm) (destroyed : Except String Unit) :
    (node.pvePrepareReceive f destroyed).1 = node ∨
      ∃ plan, node.receiveGate f = .ok plan ∧ plan.base = none ∧ node.datasetExists plan.dataset = true ∧
        destroyed = .ok () ∧ (node.pvePrepareReceive f destroyed).1 = node.destroyDataset plan.dataset := by
  unfold pvePrepareReceive
  cases passed : node.receiveGate f with
  | error e => exact .inl rfl
  | ok plan =>
    dsimp only
    cases base : plan.base with
    | none =>
      cases present : node.datasetExists plan.dataset with
      | false =>
        left
        simp only [Bool.false_eq_true, if_false]
        split <;> rfl
      | true =>
        cases destroyed with
        | error e => exact .inl rfl
        | ok _ =>
          refine .inr ⟨plan, rfl, base, present, rfl, ?_⟩
          simp only [if_true]
          split <;> rfl
    | some fr =>
      left
      dsimp only
      split
      · rfl
      · split <;> rfl

theorem prepare_passed (destroyed : Except String Unit) (ready : (node.pvePrepareReceive f destroyed).2 = .ok plan) :
    node.receiveGate f = .ok plan := by
  unfold pvePrepareReceive at ready
  cases passed : node.receiveGate f with
  | error e =>
    rw [passed] at ready
    exact absurd ready nofun
  | ok other =>
    simp only [passed] at ready
    cases base : other.base with
    | none =>
      simp only [base] at ready
      split at ready
      · exact absurd ready nofun
      · split at ready
        · exact absurd ready nofun
        · exact ready
    | some fr =>
      simp only [base] at ready
      split at ready
      · exact absurd ready nofun
      · split at ready
        · exact absurd ready nofun
        · exact ready

@[simp] theorem store_destroyDataset (dataset : String) : (node.destroyDataset dataset).store = node.store := rfl

@[simp] theorem store_setDataset (dataset : String) (list : Option (List Snap)) :
    (node.setDataset dataset list).store = node.store := rfl

@[simp] theorem pool_setDataset (dataset : String) (list : Option (List Snap)) :
    (node.setDataset dataset list).pool dataset = list := Function.update_self ..

theorem pool_setDataset_other {dataset other : String} (list : Option (List Snap)) (apart_ : other ≠ dataset) :
    (node.setDataset dataset list).pool other = node.pool other := Function.update_of_ne apart_ ..

@[simp] theorem setDataset_self (dataset : String) : node.setDataset dataset (node.pool dataset) = node := by
  unfold setDataset
  rw [Function.update_eq_self]

theorem store_prepare (node : PveNode) (f : ZfsForm) (destroyed : Except String Unit) :
    (node.pvePrepareReceive f destroyed).1.store = node.store := by
  rcases node.prepare_cases f destroyed with same | ⟨_, _, _, _, _, same⟩ <;> rw [same]
  rfl

section
variable {now : Nat} {fates : CommitFates} {e : HaEntry}

theorem receivedEntry_container : (receivedEntry f plan now e).container = e.container := by
  unfold receivedEntry
  dsimp only
  cases f.haMeta <;> cases f.primary.bind id <;> dsimp only <;> (repeat' split) <;> rfl

theorem receivedEntry_role : (receivedEntry f plan now e).role = e.role := by
  unfold receivedEntry
  dsimp only
  cases f.haMeta <;> cases f.primary.bind id <;> dsimp only <;> (repeat' split) <;> rfl

/-- The datasets that an entry which listed `old` lists once the request's settings are in. -/
def listed (f : ZfsForm) (old : List String) : List String :=
  match f.haMeta with
  | some m => if m.zfsDatasets.isEmpty then old else m.zfsDatasets
  | none => old

theorem receivedEntry_datasets : (receivedEntry f plan now e).zfsDatasets =
    if plan.dataset ∈ listed f e.zfsDatasets then listed f e.zfsDatasets else listed f e.zfsDatasets ++ [plan.dataset] := by
  unfold receivedEntry listed HaMeta.applyTo
  dsimp only
  cases f.haMeta <;> cases f.primary.bind id <;> dsimp only <;> (repeat' split) <;> simp_all

theorem receivedEntry_fresh : (receivedEntry f plan now e).stale = false ∧ (receivedEntry f plan now e).lastDeltaAt = now := by
  unfold receivedEntry
  dsimp only
  cases f.haMeta <;> cases f.primary.bind id <;> dsimp only <;> (repeat' split) <;> exact ⟨rfl, rfl⟩

theorem receivedEntry_kind : (receivedEntry f plan now e).kind = ((f.haMeta.map (·.kind)).getD e.kind) := by
  unfold receivedEntry
  dsimp only
  cases f.haMeta <;> cases f.primary.bind id <;> dsimp only <;> (repeat' split) <;> rfl

theorem get_receivedStore : (node.receivedStore f plan now).get plan.vmid =
    some (receivedEntry f plan now
      ((node.store.get plan.vmid).getD (.blank plan.vmid .pveContainer (f.primary.bind id)))) := by
  unfold receivedStore
  dsimp only
  rw [HaStore.get_modify_self _ _ _ fun _ => receivedEntry_container]
  cases held : node.store.get plan.vmid with
  | none =>
    rw [if_pos (by simp), HaStore.get_push, held]
    simp [HaEntry.blank]
  | some e =>
    rw [if_neg (by simp), held]
    rfl

theorem commit_cases (node : PveNode) (f : ZfsForm) (plan : PveReceivePlan) (now : Nat) (fates : CommitFates) :
    (∀ other, other ≠ plan.dataset → (node.pveCommitReceive f plan now fates).1.pool other = node.pool other) ∧
      ((node.pveCommitReceive f plan now fates).1.pool plan.dataset = node.pool plan.dataset ∨
        (node.pveCommitReceive f plan now fates).1.pool plan.dataset =
          (node.pool plan.dataset).map fun list => prune list plan.vmid plan.snapshot fates.destroyFails) ∧
      ((∃ e, (node.pveCommitReceive f plan now fates).2 = .error e) ∧
          (node.pveCommitReceive f plan now fates).1.store = node.store ∨
        ((node.pveCommitReceive f plan now fates).2 = .ok () ∧
          (Auth.trim f.config = "" ∨ fates.configWritten = .ok ()) ∧ fates.saved = .ok ()) ∧
          (node.pveCommitReceive f plan now fates).1.store = node.receivedStore f plan now) := by
  unfold pveCommitReceive
  dsimp only
  split
  · exact ⟨fun _ _ => rfl, .inl rfl, .inl ⟨⟨_, rfl⟩, rfl⟩⟩
  · rename_i configured same
    have kept : (configured.pool = node.pool ∧ configured.store = node.store) ∧
        (Auth.trim f.config = "" ∨ fates.configWritten = .ok ()) := by
      split at same
      · rename_i blank
        obtain rfl := Except.ok.inj same
        exact ⟨⟨rfl, rfl⟩, .inl blank⟩
      · split at same
        · exact absurd same nofun
        · rename_i written
          obtain rfl := Except.ok.inj same
          exact ⟨⟨rfl, rfl⟩, .inr written⟩
    obtain ⟨⟨pool, store⟩, config⟩ := kept
    cases held : node.pool plan.dataset with
    | none =>
      dsimp only
      split
      · exact ⟨fun _ _ => by rw [pool], .inl (by rw [pool, held]), .inl ⟨⟨_, rfl⟩, store⟩⟩
      · rename_i saved
        exact ⟨fun _ _ => by dsimp only; rw [pool], .inl (by dsimp only; rw [pool, held]),
          .inr ⟨⟨rfl, config, saved⟩, rfl⟩⟩
    | some list =>
      dsimp only
      split
      · refine ⟨fun other apart_ => ?_, .inr (pool_setDataset ..), .inl ⟨⟨_, rfl⟩, store⟩⟩
        rw [pool_setDataset_other _ apart_, pool]
      · rename_i saved
        refine ⟨fun other apart_ => ?_, .inr (pool_setDataset ..), .inr ⟨⟨rfl, config, saved⟩, rfl⟩⟩
        dsimp only
        rw [pool_setDataset_other _ apart_, pool]

end

structure SameHost (before after : PveNode) : Prop where
  isProxmox : after.isProxmox = before.isProxmox
  haveZfs : after.haveZfs = before.haveZfs
  running : after.running = before.running
  foreignConfigs : after.foreignConfigs = before.foreignConfigs

theorem SameHost.refl (node : PveNode) : SameHost node node := ⟨rfl, rfl, rfl, rfl⟩

theorem SameHost.trans {a b c : PveNode} (first : SameHost a b) (second : SameHost b c) : SameHost a c :=
  ⟨second.isProxmox.trans first.isProxmox, second.haveZfs.trans first.haveZfs, second.running.trans first.running,
    second.foreignConfigs.trans first.foreignConfigs⟩

theorem prepare_host (node : PveNode) (f : ZfsForm) (destroyed : Except String Unit) :
    SameHost node (node.pvePrepareReceive f destroyed).1 := by
  rcases node.prepare_cases f destroyed with same | ⟨_, _, _, _, _, same⟩
  · rw [same]
    exact .refl node
  · rw [same]
    exact ⟨rfl, rfl, rfl, rfl⟩

theorem commit_host (node : PveNode) (f : ZfsForm) (plan : PveReceivePlan) (now : Nat) (fates : CommitFates) :
    SameHost node (node.pveCommitReceive f plan now fates).1 := by
  unfold pveCommitReceive
  dsimp only
  split
  · exact .refl node
  · rename_i configured same
    have host : SameHost node configured := by
      split at same
      · obtain rfl := Except.ok.inj same
        exact .refl node
      · split at same
        · exact absurd same nofun
        · obtain rfl := Except.ok.inj same
          exact ⟨rfl, rfl, rfl, rfl⟩
    cases node.pool plan.dataset <;> cases fates.saved <;> exact ⟨host.1, host.2, host.3, host.4⟩

theorem receiveZfs_host (node : PveNode) (f : ZfsForm) (sent : Option Stream) (fates : ReceiveFates) :
    SameHost node (node.wolfhaReceiveZfs f sent fates).1 := by
  have prepared := prepare_host node f fates.destroyed
  unfold wolfhaReceiveZfs
  split
  · rename_i after _ result
    rw [result] at prepared
    exact prepared
  · rename_i after plan result
    rw [result] at prepared
    cases sent with
    | none => exact prepared
    | some stream =>
      have received : SameHost after (after.zfsReceive plan stream fates.cut).1 := ⟨rfl, rfl, rfl, rfl⟩
      dsimp only
      split
      · rename_i done outcome
        rw [outcome] at received
        exact prepared.trans received
      · rename_i done outcome
        rw [outcome] at received
        split
        · exact prepared.trans received
        · rename_i now commit _
          have recorded := commit_host done f plan now commit
          split <;> rename_i outcome <;> rw [outcome] at recorded <;> exact prepared.trans (received.trans recorded)

def Grown (before : Option (List Snap)) (stream : Stream) (cut : Option Nat) (grown : List Snap) : Prop :=
  stream.base = none ∧ grown = stream.snaps ∧ stream.arrived cut = stream.snaps ∨
    ∃ base list, stream.base = some base ∧ before = some list ∧ list.getLast? = some base ∧
      grown = list ++ stream.arrived cut

theorem receive_cases (dataset : Option (List Snap)) (stream : Stream) (cut : Option Nat) :
    (receive dataset stream cut).1 = dataset ∧ (receive dataset stream cut).2 = false ∨
      ∃ grown, Grown dataset stream cut grown ∧ receive dataset stream cut = (some grown, cut.isNone) := by
  unfold receive
  cases base : stream.base with
  | none =>
    cases dataset with
    | none =>
      dsimp only
      split
      · rename_i whole
        exact .inr ⟨stream.snaps, .inl ⟨base, rfl, whole⟩, rfl⟩
      · exact .inl ⟨rfl, rfl⟩
    | some list => exact .inl ⟨rfl, rfl⟩
  | some first =>
    cases dataset with
    | none => exact .inl ⟨rfl, rfl⟩
    | some list =>
      dsimp only
      split
      · rename_i last
        exact .inr ⟨_, .inr ⟨first, list, base, rfl, last, rfl⟩, rfl⟩
      · exact .inl ⟨rfl, rfl⟩

theorem prepare_pool (node : PveNode) (f : ZfsForm) (destroyed : Except String Unit) (dataset : String) :
    (node.pvePrepareReceive f destroyed).1.pool dataset = node.pool dataset ∨
    (node.pvePrepareReceive f destroyed).1.pool dataset = none ∧
      (dataset = (asked f).dataset ∨ startsWith dataset ((asked f).dataset ++ "/") = true) := by
  rcases node.prepare_cases f destroyed with same | ⟨plan, passed, _, _, _, same⟩
  · exact .inl (by rw [same])
  · rw [same]
    obtain rfl := (fieldsGate_ok.mp (receiveGate_ok.mp passed).1).1
    unfold destroyDataset
    dsimp only
    split
    · rename_i below
      exact .inr ⟨rfl, below⟩
    · exact .inl rfl

theorem prepare_asked (destroyed : Except String Unit) (ready : (node.pvePrepareReceive f destroyed).2 = .ok plan) :
    plan = asked f :=
  (fieldsGate_ok.mp (receiveGate_ok.mp (prepare_passed destroyed ready)).1).1

theorem receiveZfs_other (node : PveNode) (f : ZfsForm) (sent : Option Stream) (fates : ReceiveFates) {other : String}
    (apart_ : other ≠ (asked f).dataset) : (node.wolfhaReceiveZfs f sent fates).1.pool other = node.pool other ∨
      (node.wolfhaReceiveZfs f sent fates).1.pool other = none ∧ startsWith other ((asked f).dataset ++ "/") = true := by
  have prepared := (prepare_pool node f fates.destroyed other).imp_right fun cleared =>
    (⟨cleared.1, cleared.2.resolve_left apart_⟩ : _ ∧ startsWith other ((asked f).dataset ++ "/") = true)
  unfold wolfhaReceiveZfs
  split
  · rename_i after _ result
    rw [result] at prepared
    exact prepared
  · rename_i after plan result
    have named : plan = asked f := prepare_asked fates.destroyed (by rw [result])
    rw [result] at prepared
    rw [← named] at apart_
    cases sent with
    | none => exact prepared
    | some stream =>
      have received : (after.zfsReceive plan stream fates.cut).1.pool other = after.pool other :=
        pool_setDataset_other _ apart_
      dsimp only
      split
      · rename_i done outcome
        rw [outcome] at received
        exact received ▸ prepared
      · rename_i done outcome
        rw [outcome] at received
        split
        · exact received ▸ prepared
        · rename_i now commit _
          have recorded := (commit_cases done f plan now commit).1 other apart_
          rw [received] at recorded
          split <;> rename_i outcome <;> rw [outcome] at recorded <;> exact recorded ▸ prepared

theorem receiveZfs_dataset (node : PveNode) (f : ZfsForm) (sent : Option Stream) (fates : ReceiveFates) :
    (node.wolfhaReceiveZfs f sent fates).1.pool (asked f).dataset = node.pool (asked f).dataset ∨
      (node.wolfhaReceiveZfs f sent fates).1.pool (asked f).dataset = none ∨
      ∃ stream grown, node.receiveGate f = .ok (asked f) ∧ sent = some stream ∧
        Grown (node.pool (asked f).dataset) stream fates.cut grown ∧
        ((node.wolfhaReceiveZfs f sent fates).1.pool (asked f).dataset = some grown ∨
          fates.cut = none ∧ ∃ fails, (node.wolfhaReceiveZfs f sent fates).1.pool (asked f).dataset =
            some (prune grown (asked f).vmid (asked f).snapshot fails)) := by
  have prepared := (prepare_pool node f fates.destroyed (asked f).dataset).imp_right And.left
  unfold wolfhaReceiveZfs
  split
  · rename_i after _ result
    rw [result] at prepared
    exact prepared.imp_right .inl
  · rename_i after plan result
    have passed : node.receiveGate f = .ok plan := prepare_passed fates.destroyed (by rw [result])
    obtain rfl : plan = asked f := prepare_asked fates.destroyed (by rw [result])
    rw [result] at prepared
    cases sent with
    | none => exact prepared.imp_right .inl
    | some stream =>
      rcases receive_cases (after.pool (asked f).dataset) stream fates.cut with ⟨same, failed⟩ | ⟨grown, how, received⟩
      · have outcome : after.zfsReceive (asked f) stream fates.cut =
            (after.setDataset (asked f).dataset (after.pool (asked f).dataset), false) := by
          simp only [zfsReceive, same, failed]
        simp only [outcome, pool_setDataset]
        exact prepared.imp_right .inl
      · have outcome : after.zfsReceive (asked f) stream fates.cut =
            (after.setDataset (asked f).dataset (some grown), fates.cut.isNone) := by
          simp only [zfsReceive, received]
        have grows : Grown (node.pool (asked f).dataset) stream fates.cut grown := by
          rcases how with full | ⟨base, list, some_, there, last, joined⟩
          · exact .inl full
          · rcases prepared with same | cleared
            · exact .inr ⟨base, list, some_, same ▸ there, last, joined⟩
            · exact absurd (cleared.symm.trans there) nofun
        refine .inr (.inr ⟨stream, grown, passed, rfl, grows, ?_⟩)
        simp only [outcome]
        cases cut : fates.cut with
        | some count => exact .inl (pool_setDataset ..)
        | none =>
          dsimp only [Option.isNone_none]
          split
          · exact .inl (pool_setDataset ..)
          · rename_i now commit _
            have recorded := (commit_cases (after.setDataset (asked f).dataset (some grown)) f (asked f) now commit).2.1
            rw [pool_setDataset, Option.map_some] at recorded
            split <;> rename_i outcome <;> rw [outcome] at recorded <;>
              exact recorded.imp_right fun pruned => ⟨rfl, _, pruned⟩

theorem receiveZfs_done (node : PveNode) (f : ZfsForm) (sent : Option Stream) (fates : ReceiveFates)
    (done : (node.wolfhaReceiveZfs f sent fates).2 = .ok ())
    (named : ∀ stream, sent = some stream → ∃ last, stream.snaps.getLast? = some last ∧ last.name = (asked f).snapshot) :
    ∃ stream last list, sent = some stream ∧ last ∈ stream.snaps ∧
      (node.wolfhaReceiveZfs f sent fates).1.pool (asked f).dataset = some list ∧ list.getLast? = some last ∧
      last.name = (asked f).snapshot := by
  unfold wolfhaReceiveZfs at *
  split at done
  · cases done
  · rename_i after plan result
    obtain rfl : plan = asked f := prepare_asked fates.destroyed (by rw [result])
    cases sent with
    | none => cases done
    | some stream =>
      obtain ⟨last, ends, target⟩ := named stream rfl
      refine ⟨stream, last, ?_⟩
      rcases receive_cases (after.pool (asked f).dataset) stream fates.cut with ⟨same, failed⟩ | ⟨grown, how, received⟩
      · simp only [zfsReceive, same, failed] at done
        cases done
      · simp only [zfsReceive, received] at done ⊢
        cases cut : fates.cut with
        | some count =>
          rw [cut] at done
          cases done
        | none =>
          rw [cut] at done how
          have closes : grown.getLast? = some last := by
            rcases how with ⟨_, rfl, _⟩ | ⟨_, list, _, _, _, rfl⟩
            · exact ends
            · rw [List.getLast?_append, show stream.arrived none = stream.snaps from rfl, ends]
              rfl
          dsimp only [Option.isNone_none] at done ⊢
          cases committed : fates.committed with
          | none =>
            rw [committed] at done
            cases done
          | some commit =>
            rw [committed] at done
            have recorded := (commit_cases (after.setDataset (asked f).dataset (some grown)) f (asked f) commit.1 commit.2).2.1
            rw [pool_setDataset, Option.map_some] at recorded
            have finish : ∃ list, ((after.setDataset (asked f).dataset (some grown)).pveCommitReceive f (asked f) commit.1 commit.2).1.pool
                (asked f).dataset = some list ∧ list.getLast? = some last := by
              rcases recorded with whole | pruned
              · exact ⟨grown, whole, closes⟩
              · exact ⟨_, pruned, getLast_prune closes fun _ => .inl target⟩
            obtain ⟨list, pool, final⟩ := finish
            dsimp only at done ⊢
            split at done
            · cases done
            · rename_i recorded' outcome
              rw [outcome] at pool
              exact ⟨list, trivial, List.mem_of_getLast? ends, pool, final, target⟩

theorem receiveZfs_entry (node : PveNode) (f : ZfsForm) (sent : Option Stream) (fates : ReceiveFates) :
    (node.wolfhaReceiveZfs f sent fates).1.store = node.store ∨
      ∃ now, (node.wolfhaReceiveZfs f sent fates).1.store = node.receivedStore f (asked f) now := by
  have prepared := store_prepare node f fates.destroyed
  unfold wolfhaReceiveZfs
  split
  · rename_i after _ result
    rw [result] at prepared
    exact .inl prepared
  · rename_i after plan result
    have named : plan = asked f := prepare_asked fates.destroyed (by rw [result])
    rw [result] at prepared
    subst named
    cases sent with
    | none => exact .inl prepared
    | some stream =>
      have received : (after.zfsReceive (asked f) stream fates.cut).1.store = node.store := prepared
      dsimp only
      split
      · rename_i done outcome
        rw [outcome] at received
        exact .inl received
      · rename_i done outcome
        rw [outcome] at received
        split
        · exact .inl received
        · rename_i now commit _
          have recorded := (commit_cases done f (asked f) now commit).2.2
          have store : (done.pveCommitReceive f (asked f) now commit).1.store = node.store ∨
              ∃ later, (done.pveCommitReceive f (asked f) now commit).1.store = node.receivedStore f (asked f) later := by
            rcases recorded with ⟨_, same⟩ | ⟨_, changed⟩
            · exact .inl (same.trans received)
            · refine .inr ⟨now, changed.trans ?_⟩
              unfold receivedStore
              rw [received]
          split <;> rename_i outcome <;> rw [outcome] at store <;> exact store

def ReceiveFates.Completes (fates : ReceiveFates) : Prop :=
  fates.cut = none ∧ ∃ now commit, fates.committed = some (now, commit) ∧ commit.configWritten = .ok () ∧ commit.saved = .ok ()

theorem commit_done (node : PveNode) (f : ZfsForm) (plan : PveReceivePlan) (now : Nat) {commit : CommitFates}
    (written : commit.configWritten = .ok ()) (saved : commit.saved = .ok ()) : (node.pveCommitReceive f plan now commit).2 = .ok () ∧
      (node.pveCommitReceive f plan now commit).1.store = node.receivedStore f plan now ∧
      (node.pveCommitReceive f plan now commit).1.pool plan.dataset =
        (node.pool plan.dataset).map fun list => prune list plan.vmid plan.snapshot commit.destroyFails := by
  unfold pveCommitReceive
  dsimp only
  rw [written, saved]
  split
  · rename_i failed
    split at failed <;> exact absurd failed nofun
  · rename_i configured same
    have pool : configured.pool = node.pool := by
      split at same <;> obtain rfl := Except.ok.inj same <;> rfl
    cases held : node.pool plan.dataset with
    | none => exact ⟨rfl, rfl, by dsimp only; rw [pool, held]; rfl⟩
    | some list => exact ⟨rfl, rfl, pool_setDataset ..⟩

/-- Where there is no entry and the dataset is absent, a first stream that completes leaves an
entry, and one of which nothing arrives leaves no trace. -/
theorem receiveZfs_vacant (node : PveNode) (f : ZfsForm) (sent : Option Stream) (fates : ReceiveFates)
    (vacant : node.store.get (asked f).vmid = none) (some_ : ∀ stream, sent = some stream → stream.snaps ≠ [])
    (fate : ∀ plan, node.receiveGate f = .ok plan → fates.cut = some 0 ∨ fates.Completes) :
    (node.wolfhaReceiveZfs f sent fates).1.store.get (asked f).vmid ≠ none ∨
      (node.wolfhaReceiveZfs f sent fates).1.pool = node.pool ∧
        (node.wolfhaReceiveZfs f sent fates).1.configs = node.configs ∧
        (node.wolfhaReceiveZfs f sent fates).1.store = node.store := by
  have absent : ∀ plan, node.receiveGate f = .ok plan → plan = asked f ∧ node.pool plan.dataset = none := by
    intro plan passed
    obtain ⟨fields, _, _, vacancy⟩ := receiveGate_ok.mp passed
    obtain rfl := (fieldsGate_ok.mp fields).1
    refine ⟨rfl, ?_⟩
    unfold vacancyGate at vacancy
    rw [vacant] at vacancy
    simp only [Option.isSome_none, Bool.false_eq_true, if_false, unless_refused] at vacancy
    simpa [datasetExists] using vacancy.2.1
  have untouched : (node.pvePrepareReceive f fates.destroyed).1 = node := by
    rcases node.prepare_cases f fates.destroyed with same | ⟨plan, passed, _, present, _⟩
    · exact same
    · have none_ := (absent plan passed).2
      simp [datasetExists, none_] at present
  unfold wolfhaReceiveZfs
  split
  · rename_i after _ result
    rw [result] at untouched
    dsimp only at untouched
    exact .inr ⟨by rw [untouched], by rw [untouched], by rw [untouched]⟩
  · rename_i after plan result
    have passed : node.receiveGate f = .ok plan := prepare_passed fates.destroyed (by rw [result])
    obtain ⟨rfl, none_⟩ := absent plan passed
    rw [result] at untouched
    dsimp only at untouched
    subst untouched
    cases sent with
    | none => exact .inr ⟨rfl, rfl, rfl⟩
    | some stream =>
      have same : after.setDataset (asked f).dataset none = after := none_ ▸ after.setDataset_self (asked f).dataset
      rcases receive_cases none stream fates.cut with ⟨kept, failed⟩ | ⟨grown, how, received⟩
      · have outcome : after.zfsReceive (asked f) stream fates.cut = (after, false) := by
          simp only [zfsReceive, none_, kept, failed, same]
        dsimp only
        rw [outcome]
        exact .inr ⟨rfl, rfl, rfl⟩
      · rcases how with ⟨_, _, whole⟩ | ⟨_, _, _, there, _⟩
        · rcases fate _ passed with nothing | ⟨uncut, now, commit, committed, written, saved⟩
          · rw [nothing] at whole
            exact absurd (whole.symm.trans (List.take_zero (l := stream.snaps))) (some_ stream rfl)
          · have outcome : after.zfsReceive (asked f) stream fates.cut =
                (after.setDataset (asked f).dataset (some grown), true) := by
              rw [uncut] at received ⊢
              simp only [zfsReceive, none_, received, Option.isNone_none]
            left
            simp only [outcome, committed]
            obtain ⟨ok, store, _⟩ := commit_done (after.setDataset (asked f).dataset (some grown)) f (asked f) now
              written saved
            have entry : ((after.setDataset (asked f).dataset (some grown)).pveCommitReceive f (asked f) now commit).1.store.get
                (asked f).vmid ≠ none := by
              rw [store, get_receivedStore]
              exact nofun
            split <;> rename_i result <;> rw [result] at entry <;> exact entry
        · exact absurd there nofun

def newest (node : PveNode) (dataset : String) : Option Snap := (node.pool dataset).bind List.getLast?

theorem mem_listOurs {dataset vmid name : String} :
    name ∈ node.listOurs dataset vmid ↔
      ∃ list snap, node.pool dataset = some list ∧ snap ∈ list ∧ isOurs snap.name vmid = true ∧ snap.name = name := by
  unfold listOurs
  rw [List.mem_map]
  cases node.pool dataset with
  | none => simp [ours]
  | some list => simp [mem_ours, and_assoc]

theorem prepare_incremental (destroyed : Except String Unit) (passed : node.receiveGate f = .ok plan)
    (base : plan.base = some fr) :
    fr ∈ node.listOurs plan.dataset plan.vmid ∧ node.pvePrepareReceive f destroyed = (node, .ok plan) ∨
      fr ∉ node.listOurs plan.dataset plan.vmid ∧
        ∃ why, node.pvePrepareReceive f destroyed = (node, .error (zfsNeedsSeed ++ why)) := by
  unfold pvePrepareReceive
  simp only [passed, base]
  by_cases present : node.datasetExists plan.dataset = false
  · rw [if_pos present]
    refine .inr ⟨fun member => ?_, _, rfl⟩
    obtain ⟨list, _, there, _⟩ := mem_listOurs.mp member
    simp [datasetExists, there] at present
  · rw [if_neg present]
    by_cases held : fr ∈ node.listOurs plan.dataset plan.vmid
    · rw [if_neg (by simpa using held)]
      exact .inl ⟨held, rfl⟩
    · rw [if_pos (by simpa using held)]
      exact .inr ⟨held, _, rfl⟩

instance {ε α : Type} (result : Except ε α) (p : α → Prop) [DecidablePred p] : Decidable (∀ value, result = .ok value → p value) :=
  match result with
  | .ok value => decidable_of_iff (p value) ⟨fun holds _ same => Except.ok.inj same ▸ holds, fun holds => holds value rfl⟩
  | .error _ => isTrue nofun

end PveNode
end WolfHa
