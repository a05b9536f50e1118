import WolfStack.WolfHa.Entry
import Mathlib.Data.List.Infix
import Mathlib.Logic.Function.Basic

/-! One node as WolfHA finds it: its store file and the virtual machines it knows, and the
forms in which a primary sends deltas and seeds to it. -/

namespace WolfHa

abbrev Cluster := Nat
abbrev Block := Nat
abbrev Disk := Cluster → Block

/-- The clusters that a delta brings, with what is in them. -/
abbrev Patch := Cluster → Option Block

namespace Patch

def apply (patch : Patch) (disk : Disk) : Disk := fun key => (patch key).getD (disk key)

def restrict (patch : Patch) (written : Cluster → Bool) : Patch := fun key => if written key then patch key else none

end Patch

structure VmConfig where
  name : String
  running : Bool
  autoStart : Bool
  isoPath : Option String
  driversIso : Option String
  wolfnetIp : Option String
  storagePath : Option String
  extraDisks : List String
  usbDevices : List String
  pciDevices : List String
  tpm : Bool
deriving DecidableEq, Repr

def osDiskPathFor (config : VmConfig) : String :=
  match config.storagePath with
  | some storage => s!"{storage}/{config.name}.qcow2"
  | none => s!"/var/lib/wolfstack/vms/{config.name}.qcow2"

/-- A virtual machine under one name, with its definition and its disk image. -/
structure Subject where
  running : Bool
  config : Option VmConfig
  disk : Option Disk

inductive Staged where
  | delta (patch : Patch)
  | image (disk : Disk)

/-- `wolfhaJson` is `none` when the file is missing or does not parse. -/
structure Node where
  wolfhaJson : Option HaStore
  vm : String → Subject

namespace Node
variable (node : Node)

def load : HaStore := node.wolfhaJson.getD .empty

def save (store : HaStore) : Node := { node with wolfhaJson := some store }

def setVm (name : String) (subject : Subject) : Node := { node with vm := Function.update node.vm name subject }

def getVm (name : String) : Option VmConfig :=
  (node.vm name).config.map fun config => { config with running := (node.vm name).running }

def vmDiskAndConfig (name : String) : Except String VmConfig :=
  match node.getVm name with
  | some config => .ok config
  | none => .error s!"VM '{name}' not found on this node"

@[simp] theorem vm_setVm (name : String) (subject : Subject) : (node.setVm name subject).vm name = subject := by
  simp [setVm]

end Node

def vmNeedsSeed : String := "WOLFHA_VM_NEEDS_SEED"

/-- `str::contains`. -/
def contains (text part : String) : Bool := decide (part.toList <:+: text.toList)

def needsSeed (message : String) : Bool := contains message vmNeedsSeed

/-- A staged file opened for an upload: it is read to its end even if unlinked. -/
structure Part where
  path : String
  content : Staged

structure VmDeltaForm where
  container : String
  haMeta : Option HaMeta
  vmConfig : Option VmConfig
  chainPrev : String
  chainNext : String
  archive : Part
  efivars : Option String

structure VmSeedForm where
  container : String
  primary : HaPeer
  haMeta : HaMeta
  vmConfig : VmConfig
  chain : String
  archive : Part
  efivars : Option String

/-- What a request leaves on the node, what it answers, and the disk that a delta
it accepted produced. -/
structure Handled where
  node : Node
  answer : Except String Unit
  applied : Option Disk

namespace Node
variable (node : Node)

/-- The gates of `vm_apply_delta`: `false` for a delta this copy already holds. -/
def vmDeltaGate (name chainPrev chainNext : String) : Except String Bool :=
  match node.load.get name with
  | none => .error s!"{vmNeedsSeed}: '{name}' is not a WolfHA copy on this node"
  | some entry =>
    if entry.kind ≠ .vm then .error s!"'{name}' is not a WolfHA-managed VM on this node"
    else if (node.vm name).running then
      .error s!"VM '{name}' is running here — refusing to write into a live disk image"
    else if chainPrev = "" ∨ chainNext = "" then
      .error s!"{vmNeedsSeed}: the delta arrived without chain tokens, so this copy cannot prove the delta fits its disk — a full seed re-establishes the chain"
    else if entry.vmChain = some chainNext then .ok false
    else if entry.vmChain = some chainPrev then .ok true
    else .error s!"{vmNeedsSeed}: this copy's disk state doesn't match the delta's base (it missed a round, or is an ex-primary with uncaptured writes) — it must be re-seeded, not patched"

def activePrimary (name : String) : Bool :=
  match node.load.get name with
  | some entry => entry.role = .primary ∧ entry.stale = false
  | none => false

def refreshed (haMeta : Option HaMeta) (now : Nat) (e : HaEntry) : HaEntry :=
  let e := { e with lastDeltaAt := now, stale := false }
  match haMeta with
  | some m => m.applyTo e
  | none => e

end Node

end WolfHa
