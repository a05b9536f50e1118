import WolfStack.Replication.Hostile
import WolfStack.Rootfs.Converge

/-! One round of replication with block deltas, after `wolfha/mod.rs`: large changed
files are encoded against the replica's signatures and rebuilt there, and the rest is
archived as in a round of whole files. -/

namespace Rootfs
open Replication Wire

inductive DriverKind where
  | fileManifest
  | rollingDelta
  | qemuBitmap
  | zfsSend
deriving DecidableEq

def DriverKind.rank : DriverKind → Nat
  | .fileManifest => 0
  | .rollingDelta => 1
  | .qemuBitmap => 2
  | .zfsSend => 3

def blockSize : Nat := 64 * 1024

def minDeltaSize : Nat := 1024 * 1024

def maxSignaturePaths : Nat := 10000

/-- What a round meets outside the two trees: the hash, whether the replica answers the
signature request and the primary can stage its payload, what a symlink of the primary
leads to, and the replica's clock when it writes a rebuilt file. -/
structure Conditions where
  strongHash : Replication.Bytes → Digest
  answered : Bool
  staged : Bool
  linked : String → Option Bytes
  clock : String → Int

section

variable (conditions : Conditions) (primary replica : Files)

def readThrough (p : String) : Option Bytes :=
  match primary.find p with
  | some (.file content _) => some content
  | some (.symlink _) => conditions.linked p
  | _ => none

def worthDelta (p : String) : Bool :=
  match readThrough conditions primary p with
  | some content => minDeltaSize ≤ content.length
  | none => false

def wolfhaSignature (p : String) : Option Bytes :=
  if isSafeRelPath p then
    match replica.find p with
    | some (.file content _) => some (encodeSignatures (signatures conditions.strongHash content blockSize))
    | _ => none
  else none

def fetchSignatures (paths : List String) : Option (String → Option Bytes) :=
  if conditions.answered ∧ paths.length ≤ maxSignaturePaths then some (wolfhaSignature conditions replica) else none

/-- The delta of one file, unless the file has to be sent whole after all. -/
def blockDelta (sigs : String → Option Bytes) (rel : String) : Option FileDelta :=
  match sigs rel with
  | none => none
  | some raw =>
    match decodeSignatures raw with
    | .error _ => none
    | .ok sig =>
      match readThrough conditions primary rel with
      | none => none
      | some data =>
        let ops := deltaFromBytes conditions.strongHash data sig
        if data.length ≤ (encodeDelta ops).length then none else some ⟨rel, ops⟩

def buildBlockDeltas (sigs : String → Option Bytes) (paths : List String) : Option Bytes × List String :=
  let items := paths.filterMap (blockDelta conditions primary sigs)
  let fellBack := paths.filter fun rel => (blockDelta conditions primary sigs rel).isNone
  if items = [] then (none, fellBack)
  else if conditions.staged then (some (packFileDeltas items), fellBack)
  else (none, fellBack ++ items.map (·.path))

structure Shipment where
  blocks : Option Bytes
  archive : Option (List (String × Object))
  deletions : List String

/-- The large changed files, which are worth a delta, and the others. -/
def splitChanged (driver : DriverKind) (changed : List String) : List String × List String :=
  if DriverKind.rollingDelta.rank ≤ driver.rank then changed.partition (worthDelta conditions primary) else ([], changed)

def encodeBlocks (deltaPaths changed : List String) : Option Bytes × List String :=
  if deltaPaths = [] then (none, changed)
  else match fetchSignatures conditions replica deltaPaths with
    | none => (none, changed ++ deltaPaths)
    | some sigs =>
      let (blob, fellBack) := buildBlockDeltas conditions primary sigs deltaPaths
      (blob, changed ++ fellBack)

/-- What `sync_one_replica_from` ships. -/
def ship (driver : DriverKind) : Shipment :=
  let (changed, deletions) := syncDiff primary replica
  let (deltaPaths, changed) := splitChanged conditions primary driver changed
  let (blocks, changed) := encodeBlocks conditions primary replica deltaPaths changed
  { blocks, deletions, archive := if changed = [] ∧ deletions = [] then none else some (tarPaths primary changed) }

end

inductive Failed where
  | bundle (fault : Fault)
  | unsafePath (path : String)
  | missing (path : String)
  | create (path : String)
  | apply (path text : String)
  | delta (refused : Refused)
deriving DecidableEq

def tempPath (target : String) : String := target ++ ".wolfha-delta"

/-- A rebuilt file is written beside its target and renamed over it; its modification
time is that of the write. -/
def installReconstructedFile (clock : String → Int) (files : Files) (item : FileDelta) : Files × Option Failed :=
  match files.find item.path with
  | some (.file base _) =>
    match files.find (tempPath item.path) with
    | some .dir | some (.symlink _) | some .other => (files, some (.create item.path))
    | _ =>
      match Replication.applyDelta item.path base blockSize item.ops with
      | .error text => (files.removeFile (tempPath item.path), some (.apply item.path text))
      | .ok out => ((files.removeFile (tempPath item.path)).put item.path (.file out (clock item.path)), none)
  | _ => (files, some (.missing item.path))

def installAll (clock : String → Int) (files : Files) : List FileDelta → Files × Option Failed
  | [] => (files, none)
  | item :: rest =>
    if !isSafeRelPath item.path then (files, some (.unsafePath item.path))
    else match installReconstructedFile clock files item with
      | (files, none) => installAll clock files rest
      | failed => failed

def applyBlockDeltas (clock : String → Int) (files : Files) (blob : Bytes) : Files × Option Failed :=
  match unpackFileDeltas blob with
  | .error fault => (files, some (.bundle fault))
  | .ok items => installAll clock files items

def applyArchive (files : Files) (archive : Option (List (String × Object))) (deletions : List String) :
    Files × Option Failed :=
  match archive with
  | none => (files, none)
  | some archive =>
    match applyDelta false files archive deletions with
    | .error refused => (files, some (.delta refused))
    | .ok (after, _) => (after, none)

def applyBlocks (clock : String → Int) (files : Files) (blocks : Option Bytes) : Files × Option Failed :=
  match blocks with
  | none => (files, none)
  | some blob => applyBlockDeltas clock files blob

/-- `wolfha_apply_delta`: block deltas before the archive. -/
def wolfhaApplyDelta (clock : String → Int) (files : Files) (shipment : Shipment) : Files × Option Failed :=
  match applyBlocks clock files shipment.blocks with
  | (files, none) => applyArchive files shipment.archive shipment.deletions
  | failed => failed

def syncRound (conditions : Conditions) (driver : DriverKind) (primary replica : Files) : Files × Option Failed :=
  wolfhaApplyDelta conditions.clock replica (ship conditions primary replica driver)

section

variable (conditions : Conditions) (primary replica : Files)

def deltaPaths : List String := (syncDiff primary replica).1.filter (worthDelta conditions primary)

def blockItems : List FileDelta :=
  if conditions.answered ∧ conditions.staged ∧ (deltaPaths conditions primary replica).length ≤ maxSignaturePaths then
    (deltaPaths conditions primary replica).filterMap (blockDelta conditions primary (wolfhaSignature conditions replica))
  else []

variable {conditions primary replica}

theorem blockDelta_some {sigs : String → Option Bytes} {rel : String} {item : FileDelta}
    (encoded : blockDelta conditions primary sigs rel = some item) :
    ∃ raw sig data, sigs rel = some raw ∧ decodeSignatures raw = .ok sig ∧ readThrough conditions primary rel = some data ∧
      item = ⟨rel, deltaFromBytes conditions.strongHash data sig⟩ ∧ (encodeDelta item.ops).length < data.length := by
  rw [blockDelta] at encoded
  split at encoded
  · cases encoded
  · rename_i raw answer
    split at encoded
    · cases encoded
    · rename_i sig decoded
      split at encoded
      · cases encoded
      · rename_i data read
        obtain ⟨shorter, same⟩ := Option.ite_none_left_eq_some.mp encoded
        cases same
        exact ⟨raw, sig, data, answer, decoded, read, rfl, Nat.lt_of_not_le shorter⟩

theorem blockDelta_path {sigs : String → Option Bytes} {rel : String} {item : FileDelta}
    (encoded : blockDelta conditions primary sigs rel = some item) : item.path = rel := by
  obtain ⟨raw, sig, data, -, -, -, rfl, -⟩ := blockDelta_some encoded
  rfl

theorem wolfhaSignature_some {rel : String} {raw : Bytes} (answer : wolfhaSignature conditions replica rel = some raw) :
    isSafeRelPath rel ∧ ∃ content mtime, replica.find rel = some (.file content mtime) ∧
      raw = encodeSignatures (signatures conditions.strongHash content blockSize) := by
  rw [wolfhaSignature] at answer
  split at answer
  · rename_i safe
    split at answer
    · rename_i content mtime found
      cases answer
      exact ⟨safe, content, mtime, found, rfl⟩
    · cases answer
  · cases answer

theorem mem_encoded {sigs : String → Option Bytes} {paths : List String} {p : String} :
    p ∈ (paths.filterMap (blockDelta conditions primary sigs)).map (·.path) ↔
      p ∈ paths ∧ (blockDelta conditions primary sigs p).isSome := by
  simp only [List.mem_map, List.mem_filterMap]
  constructor
  · rintro ⟨item, ⟨rel, member, encoded⟩, rfl⟩
    rw [blockDelta_path encoded, encoded]
    exact ⟨member, rfl⟩
  · rintro ⟨member, some_⟩
    obtain ⟨item, encoded⟩ := Option.isSome_iff_exists.mp some_
    exact ⟨item, ⟨p, member, encoded⟩, blockDelta_path encoded⟩

theorem encodeBlocks_eq (small : List String) : ∃ archived,
    encodeBlocks conditions primary replica (deltaPaths conditions primary replica) small =
      (if blockItems conditions primary replica = [] then none else some (packFileDeltas (blockItems conditions primary replica)),
        archived) ∧
    ∀ p, p ∈ archived ↔ p ∈ small ∨ p ∈ deltaPaths conditions primary replica ∧
      p ∉ (blockItems conditions primary replica).map (·.path) := by
  rw [encodeBlocks, blockItems]
  by_cases empty : deltaPaths conditions primary replica = []
  · exact ⟨small, by simp [empty]⟩
  · have fell (p : String) : p ∈ (deltaPaths conditions primary replica).filter (fun rel =>
        (blockDelta conditions primary (wolfhaSignature conditions replica) rel).isNone) ↔
        p ∈ deltaPaths conditions primary replica ∧ p ∉ ((deltaPaths conditions primary replica).filterMap
          (blockDelta conditions primary (wolfhaSignature conditions replica))).map (·.path) := by
      rw [List.mem_filter, mem_encoded, not_and, Bool.not_eq_true, Option.isSome_eq_false_iff]
      exact and_congr_right fun member => (imp_iff_right member).symm
    rw [if_neg empty, fetchSignatures]
    by_cases asked : conditions.answered ∧ (deltaPaths conditions primary replica).length ≤ maxSignaturePaths
    · rw [if_pos asked]
      dsimp only [buildBlockDeltas]
      by_cases none_ : (deltaPaths conditions primary replica).filterMap
          (blockDelta conditions primary (wolfhaSignature conditions replica)) = []
      · refine ⟨_, by simp only [none_, if_true, ite_self]; rfl, fun p => ?_⟩
        rw [List.mem_append, fell, none_, ite_self]
      · rw [if_neg none_]
        by_cases room : conditions.staged = true
        · have all : conditions.answered ∧ conditions.staged ∧
              (deltaPaths conditions primary replica).length ≤ maxSignaturePaths := ⟨asked.1, room, asked.2⟩
          simp only [if_pos room, if_pos all, if_neg none_]
          refine ⟨_, rfl, fun p => ?_⟩
          rw [List.mem_append, fell]
        · have none_ : ¬(conditions.answered ∧ conditions.staged ∧
              (deltaPaths conditions primary replica).length ≤ maxSignaturePaths) := fun all => room all.2.1
          simp only [if_neg room, if_neg none_, if_true]
          refine ⟨_, rfl, fun p => ?_⟩
          rw [List.mem_append, List.mem_append, fell, mem_encoded, List.map_nil]
          by_cases sized : p ∈ deltaPaths conditions primary replica <;>
            by_cases encoded : (blockDelta conditions primary (wolfhaSignature conditions replica) p).isSome <;>
            simp [sized, encoded]
    · rw [if_neg asked]
      have none_ : ¬(conditions.answered ∧ conditions.staged ∧
          (deltaPaths conditions primary replica).length ≤ maxSignaturePaths) := fun all => asked ⟨all.1, all.2.2⟩
      refine ⟨small ++ deltaPaths conditions primary replica, ?_, fun p => ?_⟩
      · simp only [none_, if_false, if_true]
      · simp [none_]

theorem ship_rolling : ∃ archived,
    ship conditions primary replica .rollingDelta =
      { blocks := if blockItems conditions primary replica = [] then none
          else some (packFileDeltas (blockItems conditions primary replica))
        archive := if archived = [] ∧ (syncDiff primary replica).2 = [] then none else some (tarPaths primary archived)
        deletions := (syncDiff primary replica).2 } ∧
    ∀ p, p ∈ archived ↔ p ∈ (syncDiff primary replica).1 ∧ p ∉ (blockItems conditions primary replica).map (·.path) := by
  have split : splitChanged conditions primary .rollingDelta (syncDiff primary replica).1 =
      (deltaPaths conditions primary replica, (syncDiff primary replica).1.filter fun p => !worthDelta conditions primary p) := by
    rw [splitChanged, if_pos (by decide), List.partition_eq_filter_filter]
    rfl
  obtain ⟨archived, encoded, sent⟩ := @encodeBlocks_eq conditions primary replica
    ((syncDiff primary replica).1.filter fun p => !worthDelta conditions primary p)
  refine ⟨archived, ?_, fun p => ?_⟩
  · simp only [ship, split, encoded]
  · have inside : p ∈ (blockItems conditions primary replica).map (·.path) → p ∈ deltaPaths conditions primary replica := by
      rw [blockItems]
      split
      · exact fun member => (mem_encoded.mp member).1
      · simp
    rw [sent, List.mem_filter, deltaPaths, List.mem_filter]
    rw [deltaPaths, List.mem_filter] at inside
    grind

end

end Rootfs
