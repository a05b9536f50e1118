import WolfStack.WolfHa.Host

/-! A VM delta that a standby refuses, after `wolfha_apply_vm_delta`, with what its file
operations come to. The definition that comes along is stored before the delta is looked at. -/

namespace WolfHa

inductive WriteFate where
  | done
  | failed (error : String)
  | torn (error : String)
deriving DecidableEq, Repr

/-- What `qemu-img` makes of a delta. A commit that fails has written some of its clusters. -/
inductive CommitFate where
  | done
  | refused (error : String)
  | failed (error : String) (written : Cluster → Bool)

/-- How the file operations of one request go, with their error texts: storing the
definition, committing the delta, installing the firmware image, and saving the store
with the advanced chain and with the settings. -/
structure DeltaIo where
  define : WriteFate
  commit : CommitFate
  nvram : Except String Unit
  save : WriteFate
  refresh : WriteFate

namespace Node
variable (node : Node)

/-- What a standby keeps of a definition it is sent. -/
def replicaConfig (name : String) (config : VmConfig) : VmConfig :=
  { config with running := false, autoStart := false, isoPath := none, driversIso := none, name := name }

def setDefinition (name : String) (config : Option VmConfig) : Node :=
  node.setVm name { node.vm name with config := config }

/-- `vm_store_replica_config`. A file cut short is no definition. -/
def writeDefinition (name : String) (sent : Option VmConfig) (fate : WriteFate) : Node × Except String Unit :=
  match sent with
  | none => (node, .ok ())
  | some config => match fate with
    | .done => (node.setDefinition name (some (replicaConfig name config)), .ok ())
    | .failed e => (node, .error e)
    | .torn e => (node.setDefinition name none, .error e)

/-- `HaStore::save`. A file cut short is an empty store. -/
def writeStore (store : HaStore) (fate : WriteFate) : Node × Except String Unit :=
  match fate with
  | .done => (node.save store, .ok ())
  | .failed e => (node, .error s!"save wolfha store: {e}")
  | .torn e => ({ node with wolfhaJson := none }, .error s!"save wolfha store: {e}")

def firmware (efivars : Bool) (io : DeltaIo) : Except String Unit := if efivars then io.nvram else .ok ()

/-- `vm_apply_delta` past its gates. -/
def commitDelta (name : String) (patch : Patch) (chainNext : String) (efivars : Bool) (io : DeltaIo) : Handled :=
  match node.vmDiskAndConfig name with
  | .error e => ⟨node, .error e, none⟩
  | .ok config => match (node.vm name).disk with
    | none => ⟨node, .error s!"cannot apply a delta: this node has no copy of {osDiskPathFor config} — a full seed is required first", none⟩
    | some disk => match io.commit with
      | .refused e => ⟨node, .error e, none⟩
      | .failed e written =>
        ⟨node.setVm name { node.vm name with disk := some ((patch.restrict written).apply disk) }, .error e, none⟩
      | .done =>
        let committed := node.setVm name { node.vm name with disk := some (patch.apply disk) }
        match firmware efivars io with
        | .error e => ⟨committed, .error e, some (patch.apply disk)⟩
        | .ok () =>
          let saved := committed.writeStore (committed.load.modify name fun e => { e with vmChain := some chainNext }) io.save
          ⟨saved.1, saved.2, some (patch.apply disk)⟩

def applyDeltaIo (name : String) (patch : Patch) (chainPrev chainNext : String) (efivars : Bool)
    (io : DeltaIo) : Handled :=
  match node.vmDeltaGate name chainPrev chainNext with
  | .error e => ⟨node, .error e, none⟩
  | .ok false => ⟨node, .ok (), none⟩
  | .ok true => node.commitDelta name patch chainNext efivars io

/-- `wolfha_apply_vm_delta`. What saving the settings comes to is not looked at. -/
def wolfhaApplyVmDeltaIo (form : VmDeltaForm) (patch : Patch) (now : Nat) (io : DeltaIo) : Handled :=
  match node.load.get form.container with
  | none => ⟨node, .error s!"{vmNeedsSeed}: '{form.container}' is not a WolfHA copy on this node", none⟩
  | some _ =>
    if node.activePrimary form.container then
      ⟨node, .error s!"'{form.container}' is the ACTIVE primary here — refusing a delta that would overwrite it", none⟩
    else match node.writeDefinition form.container form.vmConfig io.define with
      | (defined, .error e) => ⟨defined, .error e, none⟩
      | (defined, .ok ()) =>
        let handled := defined.applyDeltaIo form.container patch form.chainPrev form.chainNext form.efivars.isSome io
        match handled.answer with
        | .error e => ⟨handled.node, .error e, handled.applied⟩
        | .ok () =>
          ⟨(handled.node.writeStore (handled.node.load.modify form.container (refreshed form.haMeta now)) io.refresh).1,
            .ok (), handled.applied⟩

def smoothIo (nvram : Except String Unit) : DeltaIo := ⟨.done, .done, nvram, .done, .done⟩

/-- The stored definition and the entry, with its chain token, are as they were. -/
structure Undisturbed (name : String) (before after : Node) : Prop where
  definition : (after.vm name).config = (before.vm name).config
  entry : after.load.get name = before.load.get name

/-- Refused before the definition is looked at: there is no entry, or the active primary. -/
def refusesOutright (name : String) : Bool := (node.load.get name).isNone || node.activePrimary name

/-- Storing the definition that is sent leaves the stored one as it was. -/
def DefinitionKept (name : String) (sent : Option VmConfig) (fate : WriteFate) : Prop :=
  ∀ config, sent = some config → match fate with
    | .done => (node.vm name).config = some (replicaConfig name config)
    | .failed _ => True
    | .torn _ => (node.vm name).config = none

/-- The delta fits and is committed, and so is the firmware image: what is left is to save the store. -/
structure Fits (name chainPrev chainNext : String) (efivars : Bool) (io : DeltaIo) : Prop where
  gate : node.vmDeltaGate name chainPrev chainNext = .ok true
  defined : (node.vm name).config.isSome
  disk : (node.vm name).disk.isSome
  commit : io.commit = .done
  firmware : firmware efivars io = .ok ()

/-- The request came as far as the store, and its write cut the file short. -/
def StoreTorn (form : VmDeltaForm) (io : DeltaIo) : Prop :=
  (node.writeDefinition form.container form.vmConfig io.define).2 = .ok () ∧
    (node.writeDefinition form.container form.vmConfig io.define).1.Fits form.container form.chainPrev form.chainNext
      form.efivars.isSome io ∧
    ∃ e, io.save = .torn e

variable {node} {name : String} {sent : Option VmConfig} {fate : WriteFate} {patch : Patch}
  {chainPrev chainNext : String} {efivars : Bool} {io : DeltaIo}

theorem writeDefinition_load : (node.writeDefinition name sent fate).1.load = node.load := by
  cases sent with
  | none => rfl
  | some config => cases fate <;> rfl

theorem writeDefinition_kept :
    ((node.writeDefinition name sent fate).1.vm name).config = (node.vm name).config ↔ node.DefinitionKept name sent fate := by
  cases sent with
  | none => simp [writeDefinition, DefinitionKept]
  | some config =>
    cases fate with
    | done => simp [writeDefinition, DefinitionKept, setDefinition, eq_comm]
    | failed e => simp [writeDefinition, DefinitionKept]
    | torn e => simp [writeDefinition, DefinitionKept, setDefinition, eq_comm]

theorem writeStore_vm (store : HaStore) : (node.writeStore store fate).1.vm name = node.vm name := by
  cases fate <;> rfl

theorem applyDeltaIo_config :
    ((node.applyDeltaIo name patch chainPrev chainNext efivars io).node.vm name).config = (node.vm name).config := by
  rw [applyDeltaIo]
  split
  · rfl
  · rfl
  · rw [commitDelta]
    split
    · rfl
    · split
      · rfl
      · split
        · rfl
        · rw [vm_setVm]
        · dsimp only
          split
          · rw [vm_setVm]
          · rw [writeStore_vm, vm_setVm]

theorem vmDiskAndConfig_error {e : String} : node.vmDiskAndConfig name = .error e → (node.vm name).config.isSome = false := by
  intro missing
  rw [vmDiskAndConfig, getVm] at missing
  cases held : (node.vm name).config with
  | none => rfl
  | some config =>
    rw [held] at missing
    cases missing

theorem commitDelta_entry {entry : HaEntry} (held : node.load.get name = some entry)
    (gate : node.vmDeltaGate name chainPrev chainNext = .ok true) {e : String}
    (refused : (node.commitDelta name patch chainNext efivars io).answer = .error e) :
    (node.commitDelta name patch chainNext efivars io).node.load.get name = node.load.get name ↔
      ¬(node.Fits name chainPrev chainNext efivars io ∧ ∃ e, io.save = .torn e) := by
  rw [commitDelta] at refused ⊢
  cases defined : node.vmDiskAndConfig name with
  | error missing =>
    refine iff_of_true rfl fun torn => ?_
    exact absurd torn.1.defined (by simp [vmDiskAndConfig_error defined])
  | ok config =>
    cases disk : (node.vm name).disk with
    | none => exact iff_of_true rfl fun torn => absurd torn.1.disk (by simp [disk])
    | some image =>
      cases commit : io.commit with
      | refused e => exact iff_of_true rfl fun torn => absurd torn.1.commit (by simp [commit])
      | failed e written => exact iff_of_true rfl fun torn => absurd torn.1.commit (by simp [commit])
      | done =>
        cases firmware : firmware efivars io with
        | error e => exact iff_of_true rfl fun torn => absurd torn.1.firmware (by simp [firmware])
        | ok installed =>
          simp only [defined, disk, commit, firmware] at refused ⊢
          cases save : io.save with
          | done =>
            simp only [save, writeStore] at refused
            cases refused
          | failed e => exact iff_of_true rfl fun torn => by simp at torn
          | torn e =>
            have known : (node.vm name).config.isSome := by
              rw [vmDiskAndConfig, getVm] at defined
              cases config : (node.vm name).config with
              | none => simp [config] at defined
              | some config => rfl
            refine iff_of_false ?_ fun intact => intact ⟨⟨gate, known, by simp [disk], commit, firmware⟩, e, rfl⟩
            rw [held]
            intro kept
            cases kept

theorem applyDeltaIo_entry {entry : HaEntry} (held : node.load.get name = some entry) {e : String}
    (refused : (node.applyDeltaIo name patch chainPrev chainNext efivars io).answer = .error e) :
    (node.applyDeltaIo name patch chainPrev chainNext efivars io).node.load.get name = node.load.get name ↔
      ¬(node.Fits name chainPrev chainNext efivars io ∧ ∃ e, io.save = .torn e) := by
  rw [applyDeltaIo] at refused ⊢
  cases gate : node.vmDeltaGate name chainPrev chainNext with
  | error e => exact iff_of_true rfl fun torn => by simp [torn.1.gate] at gate
  | ok fits =>
    cases fits with
    | false =>
      rw [gate] at refused
      cases refused
    | true =>
      rw [gate] at refused
      exact commitDelta_entry held gate refused

/-- A refused request leaves definition and entry alone exactly if it is refused outright, or
if what it stored first is what was stored already and no write cut wolfha.json short. -/
theorem refused_undisturbed_iff {form : VmDeltaForm} {now : Nat} {e : String}
    (refused : (node.wolfhaApplyVmDeltaIo form patch now io).answer = .error e) :
    Undisturbed form.container node (node.wolfhaApplyVmDeltaIo form patch now io).node ↔
      node.refusesOutright form.container = true ∨
        node.DefinitionKept form.container form.vmConfig io.define ∧ ¬node.StoreTorn form io := by
  rw [wolfhaApplyVmDeltaIo] at refused ⊢
  cases held : node.load.get form.container with
  | none => exact iff_of_true ⟨rfl, rfl⟩ (.inl (by simp [refusesOutright, held]))
  | some entry =>
    cases active : node.activePrimary form.container with
    | true => exact iff_of_true ⟨rfl, rfl⟩ (.inl (by simp [refusesOutright, active]))
    | false =>
      have past : node.refusesOutright form.container = false := by simp [refusesOutright, held, active]
      rw [past, or_iff_right Bool.false_ne_true]
      have load := @writeDefinition_load node form.container form.vmConfig io.define
      have kept := @writeDefinition_kept node form.container form.vmConfig io.define
      cases written : node.writeDefinition form.container form.vmConfig io.define with
      | mk defined result =>
        rw [written] at load kept
        cases result with
        | error e =>
          have untorn : ¬node.StoreTorn form io := fun torn => by simp [StoreTorn, written] at torn
          rw [and_iff_left untorn, ← kept]
          exact ⟨fun same => same.definition, fun same => ⟨same, congrArg (HaStore.get · form.container) load⟩⟩
        | ok stored =>
          simp only [held, active, written] at refused ⊢
          have torn : node.StoreTorn form io ↔ defined.Fits form.container form.chainPrev form.chainNext
              form.efivars.isSome io ∧ ∃ e, io.save = .torn e := by simp [StoreTorn, written]
          cases handled : (defined.applyDeltaIo form.container patch form.chainPrev form.chainNext
              form.efivars.isSome io).answer with
          | ok done =>
            simp only [handled] at refused
            cases refused
          | error e =>
            have entry := applyDeltaIo_entry (by rw [load, held]) handled
            have config := @applyDeltaIo_config defined form.container patch form.chainPrev form.chainNext
              form.efivars.isSome io
            rw [torn, ← entry, ← kept, load, ← config]
            exact ⟨fun same => ⟨same.definition, same.entry⟩, fun same => ⟨same.1, same.2⟩⟩

end Node

def definitionOf (ip : String) : VmConfig where
  name := "db-vm"
  running := false
  autoStart := false
  isoPath := none
  driversIso := none
  wolfnetIp := some ip
  storagePath := none
  extraDisks := []
  usbDevices := []
  pciDevices := []
  tpm := false

def behindNode : Node where
  wolfhaJson := some ⟨[{ HaEntry.blank "db-vm" .vm none with vmChain := some "t5" }]⟩
  vm := fun _ => ⟨false, some (definitionOf "10.100.0.7"), some fun _ => 0⟩

def laterDelta (config : Option VmConfig) : VmDeltaForm where
  container := "db-vm"
  haMeta := none
  vmConfig := config
  chainPrev := "t6"
  chainNext := "t7"
  archive := ⟨"/var/lib/wolfstack/wolfha/in.qcow2", .delta fun _ => none⟩
  efivars := none

theorem laterDelta_refused (config : Option VmConfig) :
    ∃ e, (behindNode.wolfhaApplyVmDeltaIo (laterDelta config) (fun _ => none) 0 (Node.smoothIo (.ok ()))).answer = .error e := by
  cases config with
  | none => exact ⟨_, rfl⟩
  | some config => exact ⟨_, rfl⟩

theorem refused_undisturbed_iff_sample :
    Node.Undisturbed "db-vm" behindNode
      (behindNode.wolfhaApplyVmDeltaIo (laterDelta none) (fun _ => none) 0 (Node.smoothIo (.ok ()))).node := by
  obtain ⟨e, refused⟩ := laterDelta_refused none
  refine (Node.refused_undisturbed_iff refused).mpr (.inr ⟨?_, ?_⟩)
  · intro config sent
    cases sent
  · intro torn
    obtain ⟨-, -, e, cut⟩ := torn
    cases cut

/-- The chain does not fit, and the definition that came along stays. -/
theorem refused_definition_stays :
    ∃ e, (behindNode.wolfhaApplyVmDeltaIo (laterDelta (some (definitionOf "10.100.0.8"))) (fun _ => none) 0
        (Node.smoothIo (.ok ()))).answer = .error e ∧
      ¬Node.Undisturbed "db-vm" behindNode
        (behindNode.wolfhaApplyVmDeltaIo (laterDelta (some (definitionOf "10.100.0.8"))) (fun _ => none) 0
          (Node.smoothIo (.ok ()))).node := by
  obtain ⟨e, refused⟩ := laterDelta_refused (some (definitionOf "10.100.0.8"))
  refine ⟨e, refused, ?_⟩
  intro same
  exact absurd same.definition (by decide +kernel)

end WolfHa
