import WolfStack.Router.ConfigFile
import WolfStack.Effects.System

/-! The process that holds the router's configuration: its file system, its requests and
checks, which run side by side, and its restarts. Files may be changed under it at any time. -/

namespace Router
open Effects

variable {Config : Type}

/-- What chance decides of one request: the clock, and whether the file system obliges. -/
structure Chance where
  now : Nat
  written : Except String Unit
  copied : Bool
  pruned : Bool
  listed : Bool
  /-- What a write in place that failed has left of the file. -/
  left : File

structure Host (Config : Type) where
  disk : Disk
  latch : Bool
  memory : Held Config
  clean : Bool

namespace Host

def run (chance : Chance) (s : Host Config) : {β : Type} → Section Config β → β × Host Config
  | _, .readLive => (s.disk.live, s)
  | _, .clearLatch _ => ((), { s with latch := false })
  | _, .setLatch => ((), { s with latch := true })
  | _, .testLatch _ => (s.latch, s)
  | _, .quarantine raw =>
    match chance.written with
    | .ok () => (some chance.now, { s with disk := { s.disk with broken := File.put s.disk.broken chance.now (.text raw) } })
    | .error _ => (none, { s with disk := { s.disk with broken := File.put s.disk.broken chance.now chance.left } })
  | _, .readBackups => (if chance.listed then s.disk.backups.map Prod.fst else [], s)
  | _, .readBackup ts => (File.find s.disk.backups ts, s)
  | _, .readSnapshot (.backup ts) => (File.find s.disk.backups ts, s)
  | _, .readSnapshot (.broken ts) => (File.find s.disk.broken ts, s)
  | _, .backUp prune =>
    match s.disk.live with
    | .absent => ((), s)
    | live =>
      if chance.copied then
        let backups := File.put s.disk.backups chance.now live
        ((), { s with disk := { s.disk with backups := if prune && chance.pruned then File.pruneOldBackups maxBackups backups else backups } })
      else ((), { s with disk := { s.disk with backups := File.put s.disk.backups chance.now chance.left } })
  | _, .createDir => (chance.written, s)
  | _, .replaceLive _ raw =>
    match chance.written with
    | .ok () => (.ok (), { s with disk := { s.disk with live := .text raw } })
    | .error e => (.error e, s)
  | _, .overwriteLive raw =>
    match chance.written with
    | .ok () => (.ok (), { s with disk := { s.disk with live := .text raw } })
    | .error e => (.error e, { s with disk := { s.disk with live := chance.left } })
  | _, .edit edit => (edit.apply s.memory, { s with memory := edit.apply s.memory })
  | _, .clone => (s.memory, s)
  | _, .assign held => ((), { s with memory := held })
  | _, .markLoaded => ((), { s with clean := true })
  | _, .maySave => (s.clean, s)

variable [DecidableEq Config]

def agrees (serde : Serde Config) (s : Host Config) : Bool :=
  match s.disk.live with
  | .text raw =>
    match serde.fromStr raw with
    | .ok cfg => cfg = s.memory.config
    | .error _ => false
  | _ => false

def step (chances : Nat → Chance) (at_ : Host Config × Nat) {β : Type} (operation : Section Config β) : β × Host Config × Nat :=
  ((at_.1.run (chances at_.2) operation).1, (at_.1.run (chances at_.2) operation).2, at_.2 + 1)

/-- What the process does before anything else: the latch is clear, and the file is loaded. -/
def loads (serde : Serde Config) (chances : Nat → Chance) (s : Host Config) : (Config × LoadOutcome) × Host Config :=
  let ((config, outcome), host, _) := (loadWithStatus serde).drive (fun at_ operation => step chances at_ operation) ({ s with latch := false }, 0)
  ((config, outcome), host)

/-- `RouterState::new`. -/
def new (serde : Serde Config) (chances : Nat → Chance) (s : Host Config) : LoadOutcome × Host Config :=
  let ((config, outcome), host) := s.loads serde chances
  (outcome, { host with memory := ⟨config, outcome.failed⟩, clean := !outcome.failed })

end Host

inductive Event where
  | started (failed : Bool)
  /-- A save has put a file in the place of another; whether its configuration descends
  from the default that a failed load fell back on. -/
  | saved (fallback : Bool) (over_ : File)
  /-- An operator has recovered the configuration, and memory is what was recovered. -/
  | restored
  /-- A latch that a failed load had set, or is about to, is cleared for good; whether file
  and memory agree. -/
  | settled (agree : Bool)
deriving DecidableEq, Repr

abbrev CallId := Nat × Nat

/-- `loading` are calls whose load has cleared the latch over a text that does not parse. -/
structure Machine (Config : Type) where
  host : Host Config
  boot : Nat
  loading : List CallId
  log : List Event

namespace Machine

def failed (s : Machine Config) : Bool := s.host.latch || !s.loading.isEmpty

def concludes (call : CallId) (s : Machine Config) : Machine Config :=
  { s with loading := s.loading.filter fun other => other ≠ call }

variable [DecidableEq Config]

def settles (serde : Serde Config) (s : Machine Config) : List Event :=
  if s.failed then .settled (s.host.agrees serde) :: s.log else s.log

def record (serde : Serde Config) (call : CallId) (s : Machine Config) : {β : Type} → Section Config β → β → Machine Config
  | _, .clearLatch (.readable raw), _ =>
    match serde.fromStr raw with
    | .ok _ => { s with log := s.settles serde }
    | .error _ => { s with loading := call :: s.loading }
  | _, .clearLatch _, _ => { s with log := s.settles serde }.concludes call
  | _, .setLatch, _ => s.concludes call
  | _, .replaceLive (.save fallback) _, .ok () => { s with log := .saved fallback s.host.disk.live :: s.log }
  | _, .assign held, _ => if held.fallback then s else { s with log := .restored :: s.log }
  | _, _, _ => s

def perform (serde : Serde Config) (call : CallId) (s : Machine Config) (chance : Chance) {β : Type} (operation : Section Config β) :
    β × Machine Config :=
  let (value, host) := s.host.run chance operation
  (value, { s.record serde call operation value with host })

def restart (serde : Serde Config) (chances : Nat → Chance) (s : Machine Config) : Machine Config :=
  let (outcome, host) := s.host.new serde chances
  let started := .started outcome.failed :: s.log
  { host
    boot := s.boot + 1
    loading := []
    log := if outcome.failed || outcome == .fresh then started else .settled (host.agrees serde) :: started }

def Failed (serde : Serde Config) (s : Machine Config) : Prop :=
  ∃ before : Machine Config, before.log = [] ∧ ∃ chances, s = before.restart serde chances ∧ s.host.memory.fallback = true

end Machine

inductive Call (serde : Serde Config) : Program (Section Config) Unit → Prop
  | check : Call serde ((load serde).bind fun _ => .pure ())
  | edit (edit : Edit Config) : Call serde (editAndSave serde edit)
  | editCopy (edit : Edit Config) (undo : Option (Edit Config)) : Call serde (editThenSave serde edit undo)
  | zones (zones : Edit Config) : Call serde (ensureDefaultZones serde zones)
  | restore (snapshot : Snapshot) : Call serde (restoreRecovery serde snapshot)
  | reconstruct (found : Config) : Call serde (commitArtifactReconstruction serde found)

structure Policy (Config : Type) where
  request : Machine Config → {β : Type} → Section Config β → Prop
  start : (Nat → Chance) → Prop

def Policy.any : Policy Config := ⟨fun _ _ _ => True, fun _ => True⟩

variable [DecidableEq Config]

def routerSystem (serde : Serde Config) (policy : Policy Config) : System (Machine Config) (Section Config) CallId Unit where
  moves before after := (∃ disk, after = { before with host := { before.host with disk } }) ∨
    ∃ chances, policy.start chances ∧ after = before.restart serde chances
  bodies _ := { program | Call serde program }
  commits call _ before operation value after := before.boot = call.1 ∧ policy.request before operation ∧
    ∃ chance, (value, after) = before.perform serde call chance operation
  stops _ _ := False

end Router
