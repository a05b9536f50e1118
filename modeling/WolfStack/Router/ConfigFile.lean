import WolfStack.Effects.Program
import Mathlib.Data.List.Infix

/-! The router's `config.json`: how it is loaded, saved and recovered, what is kept of it
in memory, and the latch that stops saves after a load that failed. -/

namespace Router
open Effects

/-- What `read_to_string` finds under a path. -/
inductive File where
  | absent
  | unreadable (error : String)
  | text (raw : String)
deriving DecidableEq, Repr

/-- Files under `ROUTER_DIR`: the live one, `config.json.bak.<ts>` and `config.json.broken-<ts>`. -/
structure Disk where
  live : File
  backups : List (Nat × File)
  broken : List (Nat × File)
deriving DecidableEq, Repr

/-- Reading and writing a configuration as JSON. The first value of a text comes with the
bytes that it takes up, which are that value and nothing else. -/
structure Serde (Config : Type) where
  default : Config
  fromStr : String → Except String Config
  firstValue : String → Option (Config × String)
  toStringPretty : Config → Except String String
  firstValue_reads : ∀ raw cfg cleaned, firstValue raw = some (cfg, cleaned) → fromStr cleaned = .ok cfg

def routerDir : String := "/etc/wolfstack/router"

def path : String := routerDir ++ "/config.json"

def maxBackups : Nat := 10

namespace File

/-- The file under a name among those of its kind. -/
def find (files : List (Nat × File)) (ts : Nat) : File :=
  match files.find? fun entry => entry.1 = ts with
  | some entry => entry.2
  | none => .absent

def put (files : List (Nat × File)) (ts : Nat) (file : File) : List (Nat × File) :=
  (ts, file) :: files.filter fun entry => entry.1 ≠ ts

/-- Keep the newest so many. -/
def pruneOldBackups (keep : Nat) (backups : List (Nat × File)) : List (Nat × File) :=
  if backups.length ≤ keep then backups
  else (backups.mergeSort fun a b => a.1 ≤ b.1).drop (backups.length - keep)

end File

/-- A recovery target: a rolling backup or a quarantined file, by its name. -/
inductive Snapshot where
  | backup (ts : Nat)
  | broken (ts : Nat)
deriving DecidableEq, Repr

def Snapshot.path : Snapshot → String
  | .backup ts => routerDir ++ "/config.json.bak." ++ toString ts
  | .broken ts => routerDir ++ "/config.json.broken-" ++ toString ts

inductive LoadOutcome where
  | loaded
  | fresh
  | parseError (quarantinePath : Option Nat) (error : String)
  | autoRecovered (fromTimestamp : Nat) (brokenQuarantine : Option Nat) (parseError : String)
  | recoveredFromTornWrite (brokenQuarantine : Option Nat) (parseError : String)
deriving DecidableEq, Repr

def LoadOutcome.failed : LoadOutcome → Bool
  | .parseError .. => true
  | _ => false

inductive Clearing (Config : Type) where
  | readable (raw : String)
  | absent
  | parsed
  | torn
  | backup
  | snapshot
  | marked

/-- A configuration, and whether it descends from the default that a failed load fell back on. -/
structure Held (Config : Type) where
  config : Config
  fallback : Bool

inductive Edit (Config : Type) where
  | modify (f : Config → Config)
  | replace (config : Config)

def Edit.apply {Config : Type} : Edit Config → Held Config → Held Config
  | .modify f, held => { held with config := f held.config }
  | .replace config, _ => ⟨config, false⟩

inductive Writer where
  | save (fallback : Bool)
  | recovery
  | reconstruction
deriving DecidableEq, Repr

inductive Section (Config : Type) : Type → Type where
  | readLive : Section Config File
  | clearLatch (clearing : Clearing Config) : Section Config Unit
  | setLatch : Section Config Unit
  | testLatch (fallback : Bool) : Section Config Bool
  | quarantine (raw : String) : Section Config (Option Nat)
  | readBackups : Section Config (List Nat)
  | readBackup (ts : Nat) : Section Config File
  | readSnapshot (snapshot : Snapshot) : Section Config File
  /-- Copies the live file to `config.json.bak.<now>`, and prunes where that is asked for. -/
  | backUp (prune : Bool) : Section Config Unit
  | createDir : Section Config (Except String Unit)
  /-- A file of its own is written and renamed. -/
  | replaceLive (writer : Writer) (raw : String) : Section Config (Except String Unit)
  /-- The live file is written in place. -/
  | overwriteLive (raw : String) : Section Config (Except String Unit)
  | edit (edit : Edit Config) : Section Config (Held Config)
  | clone : Section Config (Held Config)
  | assign (held : Held Config) : Section Config Unit
  | markLoaded : Section Config Unit
  | maySave : Section Config Bool

variable {Config : Type}

def mentions (text : String) (part : String) : Bool := decide (part.toList <:+: text.toList)

def tornWrite (serde : Serde Config) (raw parseError : String) : Option (Config × String) :=
  if mentions parseError "trailing characters" then serde.firstValue raw else none

def tryBackups (serde : Serde Config) : List Nat → Program (Section Config) (Option (Nat × Config))
  | [] => pure none
  | ts :: older => do
    match ← .send (.readBackup ts) with
    | .text raw =>
      match serde.fromStr raw with
      | .ok cfg =>
        -- where this fails the configuration is adopted all the same
        let _ ← .send (.replaceLive .recovery raw)
        return some (ts, cfg)
      | .error _ => tryBackups serde older
    | _ => tryBackups serde older

def tryAutoRecoverFromBackup (serde : Serde Config) : Program (Section Config) (Option (Nat × Config)) := do
  let backups ← .send .readBackups
  tryBackups serde (backups.mergeSort fun a b => b ≤ a)

def recover (serde : Serde Config) (raw parseError : String) : Program (Section Config) (Config × LoadOutcome) := do
  let quarantinePath ← .send (.quarantine raw)
  match tornWrite serde raw parseError with
  | some (cfg, cleaned) =>
    let _ ← .send (.replaceLive .recovery cleaned)
    .send (.clearLatch .torn)
    return (cfg, .recoveredFromTornWrite quarantinePath parseError)
  | none =>
    match ← tryAutoRecoverFromBackup serde with
    | some (ts, cfg) =>
      .send (.clearLatch .backup)
      return (cfg, .autoRecovered ts quarantinePath parseError)
    | none =>
      .send .setLatch
      return (serde.default, .parseError quarantinePath parseError)

def loadWithStatus (serde : Serde Config) : Program (Section Config) (Config × LoadOutcome) := do
  match ← .send .readLive with
  | .absent =>
    .send (.clearLatch .absent)
    return (serde.default, .fresh)
  | .unreadable e =>
    .send .setLatch
    return (serde.default, .parseError none ("read failed: " ++ e))
  | .text raw =>
    .send (.clearLatch (.readable raw))
    match serde.fromStr raw with
    | .ok cfg =>
      .send (.clearLatch .parsed)
      return (cfg, .loaded)
    | .error parseError => recover serde raw parseError

def save (serde : Serde Config) (held : Held Config) : Program (Section Config) (Except String Unit) := do
  if ← .send (.testLatch held.fallback) then
    return .error "WolfRouter config not persisted: startup load failed and the process is in recovery mode. Pick a backup or quarantined snapshot from the rollback panel (or `--wolfrouter-recover`) before edits will persist."
  else
    match ← .send .createDir with
    | .error e => return .error ("Failed to create router dir: " ++ e)
    | .ok () =>
      .send (.backUp true)
      match serde.toStringPretty held.config with
      | .error e => return .error ("Serialize failed: " ++ e)
      | .ok json => .send (.replaceLive (.save held.fallback) json)

def restoreRecoverySnapshot (serde : Serde Config) (snapshot : Snapshot) : Program (Section Config) (Except String Unit) := do
  match ← .send (.readSnapshot snapshot) with
  | .absent => return .error ("snapshot " ++ snapshot.path ++ " no longer exists")
  | .unreadable e => return .error ("could not read snapshot " ++ snapshot.path ++ ": " ++ e)
  | .text raw =>
    .send (.backUp false)
    match ← .send (.overwriteLive raw) with
    | .error e => return .error ("could not write live config " ++ path ++ ": " ++ e)
    | .ok () =>
      match serde.fromStr raw with
      | .ok _ =>
        .send (.clearLatch .snapshot)
        return .ok ()
      | .error _ => return .ok ()

def markClean : Program (Section Config) Unit := do
  .send .markLoaded
  .send (.clearLatch .marked)

/-- Memory is what the file holds now, or the default where that fails. -/
def reload (serde : Serde Config) : Program (Section Config) LoadOutcome := do
  let (config, outcome) ← loadWithStatus serde
  .send (.assign ⟨config, outcome.failed⟩)
  return outcome

def restoreRecovery (serde : Serde Config) (snapshot : Snapshot) : Program (Section Config) Unit := do
  match ← restoreRecoverySnapshot serde snapshot with
  | .error _ => return
  | .ok () =>
    let outcome ← reload serde
    if outcome.failed then return else markClean

/-- What was found among the artefacts is written and taken up. -/
def commitArtifactReconstruction (serde : Serde Config) (found : Config) : Program (Section Config) Unit := do
  match serde.toStringPretty found with
  | .error _ => return
  | .ok json =>
    match ← .send .createDir with
    | .error _ => return
    | .ok () =>
      .send (.backUp false)
      match ← .send (.replaceLive .reconstruction json) with
      | .error _ => return
      | .ok () =>
        let _ ← reload serde
        markClean

def editAndSave (serde : Serde Config) (edit : Edit Config) : Program (Section Config) Unit := do
  let held ← .send (.edit edit)
  let _ ← save serde held

/-- An edit whose result is saved from a copy. Where that fails it may be taken back. -/
def editThenSave (serde : Serde Config) (edit : Edit Config) (undo : Option (Edit Config)) : Program (Section Config) Unit := do
  let _ ← .send (.edit edit)
  let held ← .send .clone
  match ← save serde held, undo with
  | .error _, some undo =>
    let _ ← .send (.edit undo)
    return
  | _, _ => return

def ensureDefaultZones (serde : Serde Config) (zones : Edit Config) : Program (Section Config) Unit := do
  let _ ← .send (.edit zones)
  if ← .send .maySave then
    let held ← .send .clone
    let _ ← save serde held
    return
  else return

/-- `RouterConfig::load`, as it is called by whoever wants one field of the file. -/
def load (serde : Serde Config) : Program (Section Config) Config := do
  let (config, _) ← loadWithStatus serde
  return config

end Router
