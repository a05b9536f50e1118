import WolfStack.Predictive.Tick
import Mathlib.Algebra.Group.Nat.Defs

/-! The history of disk usage and what is made of it, after `predictive/metrics.rs`,
`predictive/disk_verdict.rs`, `predictive/disk_fill.rs` and `predictive/container_disk.rs`. Doubles and how
findings word them are parameters. -/

open scoped List

namespace Predictive

/-- The operations on doubles that are used. What a `u32` is stored as reads back as that. -/
structure Floats (F : Type) where
  ofInt : Int → F
  add : F → F → F
  sub : F → F → F
  mul : F → F → F
  div : F → F → F
  max : F → F → F
  lt : F → F → Bool
  le : F → F → Bool
  isZero : F → Bool
  toU32 : F → Nat
  exact_ : ∀ n : Nat, n < 2 ^ 32 → toU32 (ofInt n) = n

/-- The timestamp in milliseconds. -/
structure MetricSample (F : Type) where
  ts : Int
  value : F

/-- Samples of a resource and a metric, the oldest first; none where there is no entry. -/
structure MetricsHistory (F : Type) where
  samples : String → String → List (MetricSample F)
  capacity : Nat

variable {F : Type}

def capped {α : Type} (capacity : Nat) (items : List α) : List α := items.drop (items.length - capacity)

namespace MetricsHistory

def recordAt (h : MetricsHistory F) (resource metric : String) (value : F) (ts : Int) : MetricsHistory F where
  samples r m := if r = resource ∧ m = metric then capped h.capacity (h.samples r m ++ [⟨ts, value⟩]) else h.samples r m
  capacity := h.capacity

def retainResources (h : MetricsHistory F) (keep : String → Bool) : MetricsHistory F where
  samples r m := if keep r = true then h.samples r m else []
  capacity := h.capacity

/-- `by_resource.get_mut(..).clear()`. -/
def clear (h : MetricsHistory F) (resource : String) : MetricsHistory F where
  samples r m := if r = resource then [] else h.samples r m
  capacity := h.capacity

variable {h : MetricsHistory F} {keep : String → Bool} {r m : String}

theorem dropped (no : keep r = false) : (h.retainResources keep).samples r m = [] := if_neg (Bool.not_eq_true _ ▸ no)

end MetricsHistory

variable (ops : Floats F)

def Floats.sum (items : List F) : F := items.foldl ops.add (ops.ofInt 0)

/-- The slope in units a second, and the intercept. -/
def linearFit (samples : List (MetricSample F)) : Option (F × F) :=
  match samples with
  | [] => none
  | [_] => none
  | first :: _ =>
    let xs := samples.map fun s => ops.div (ops.ofInt (s.ts - first.ts)) (ops.ofInt 1000)
    let ys := samples.map fun s => s.value
    let n := ops.ofInt samples.length
    let meanX := ops.div (ops.sum xs) n
    let meanY := ops.div (ops.sum ys) n
    let fit := (xs.zip ys).foldl (fun (num, denom) (x, y) =>
      let dx := ops.sub x meanX
      (ops.add num (ops.mul dx (ops.sub y meanY)), ops.add denom (ops.mul dx dx))) (ops.ofInt 0, ops.ofInt 0)
    if ops.isZero fit.2 = true then none
    else
      let slope := ops.div fit.1 fit.2
      some (slope, ops.sub meanY (ops.mul slope meanX))

def minSamples : Nat := 3
def minSpanMinutes : Int := 30
def maxHorizonHours : Int := 24 * 7
def criticalHours : Int := 6
def highHours : Int := 48
def minUsedPct : Int := 50
def fillTargetPct : Int := 95

structure Verdict (F : Type) where
  severity : Severity
  etaHours : Option F
  slopePctPerHour : F
  samplesUsed : Nat
  spanMinutes : Int

def severityFromEta (etaHours : F) : Severity :=
  if ops.lt etaHours (ops.ofInt criticalHours) = true then .critical
  else if ops.lt etaHours (ops.ofInt highHours) = true then .high
  else .warn

def computeVerdict (samples : List (MetricSample F)) (usedPctNow targetPct : F) : Option (Verdict F) :=
  if samples.length < minSamples then none
  else
    match samples.head?, samples.getLast? with
    | some front, some back =>
      let spanMinutes := (back.ts - front.ts).tdiv 60000
      if spanMinutes < minSpanMinutes then none
      else
        match linearFit ops samples with
        | none => none
        | some (slopePerSec, _) =>
          let slopePerHour := ops.mul slopePerSec (ops.ofInt 3600)
          if ops.le targetPct usedPctNow = true then
            if ops.le slopePerHour (ops.ofInt 0) = true then some ⟨.warn, none, slopePerHour, samples.length, spanMinutes⟩
            else
              let etaHours := ops.div (ops.sub (ops.ofInt 100) usedPctNow) slopePerHour
              some ⟨severityFromEta ops etaHours, some (ops.max etaHours (ops.ofInt 0)), slopePerHour, samples.length, spanMinutes⟩
          else if ops.le slopePerHour (ops.ofInt 0) = true then none
          else
            let etaHours := ops.div (ops.sub targetPct usedPctNow) slopePerHour
            if ops.lt (ops.ofInt maxHorizonHours) etaHours = true then none
            else some ⟨severityFromEta ops etaHours, some etaHours, slopePerHour, samples.length, spanMinutes⟩
    | _, _ => none

/-- A line of `df` with its columns read. -/
structure DfRow (F : Type) where
  target : String
  fstype : String
  size : Nat
  avail : Nat
  pcent : F

structure DiskFact (F : Type) where
  mount : String
  fstype : String
  usedPct : F
  totalBytes : Nat
  availBytes : Nat

def isPseudoFs (fstype : String) : Bool :=
  fstype ∈ ["tmpfs", "devtmpfs", "proc", "sysfs", "overlay", "squashfs", "tracefs", "bpf", "debugfs", "securityfs", "pstore",
    "mqueue", "nsfs", "ramfs", "autofs", "binfmt_misc", "configfs", "fusectl", "hugetlbfs", "rpc_pipefs", "selinuxfs",
    "fuse.gvfsd-fuse", "fuse.portal", "fuse.snapfuse"] || "cgroup".toList.isPrefixOf fstype.toList

def parseDfOutput (rows : List (DfRow F)) : List (DiskFact F) :=
  rows.filterMap fun row =>
    if isPseudoFs row.fstype = true then none
    else if row.size = 0 then none
    else some ⟨row.target, row.fstype, row.pcent, row.size, row.avail⟩

inductive Runtime where
  | docker
  | lxc
deriving DecidableEq, Repr

def Runtime.findingType : Runtime → String
  | .docker => "docker_storage_fill_eta"
  | .lxc => "lxc_storage_fill_eta"

def Runtime.label : Runtime → String
  | .docker => "docker"
  | .lxc => "lxc"

def resourceId (runtime : Runtime) (name : String) : String := runtime.label ++ ":" ++ name

structure ContainerInfo where
  id : String
  name : String
  image : String
  state : String
  diskUsage : Option Nat
  diskTotal : Option Nat
  restartCount : Option Nat

structure ContainerDiskFact (F : Type) where
  runtime : Runtime
  name : String
  id : String
  image : String
  usedPct : F
  totalBytes : Nat
  usedBytes : Nat

def isRunningState (state : String) : Bool := state.toLower ∈ ["running", "started"]

def containerToFact (runtime : Runtime) (c : ContainerInfo) : Option (ContainerDiskFact F) :=
  if isRunningState c.state = true then
    match c.diskUsage, c.diskTotal with
    | some used, some total =>
      if total = 0 then none
      else some ⟨runtime, c.name, c.id, c.image, ops.mul (ops.div (ops.ofInt used) (ops.ofInt total)) (ops.ofInt 100), total, used⟩
    | _, _ => none
  else none

structure RestartFact where
  name : String
  id : String
  image : String
  state : String
  restartCount : Nat

def isRunningOrRestarting (state : String) : Bool := state.toLower ∈ ["running", "restarting", "started"]

def restartFact (c : ContainerInfo) : Option RestartFact :=
  if isRunningOrRestarting c.state = true then c.restartCount.map fun count => ⟨c.name, c.id, c.image, c.state, count⟩ else none

/-- `disk_used_pct`, of hosts and containers alike. -/
def diskMetric : String := "disk_used_pct"
def restartMetric : String := "restart_count"
def idSentinelMetric : String := "__container_id_hash"

/-- FNV-1a with 32 bits. -/
def factIdHash (id : String) : Nat :=
  id.toUTF8.toList.foldl (fun hash byte => (hash ^^^ byte.toNat) * 0x01000193 % 2 ^ 32) 0x811c9dc5

/-- The samples of a container that had another id are dropped, and the id is noted. -/
def maybeResetHistory (h : MetricsHistory F) (resource id : String) (ts : Int) : MetricsHistory F :=
  let needsReset := (h.samples resource idSentinelMetric).getLast?.any fun s => ops.toU32 s.value != factIdHash id
  let h := if needsReset = true then h.clear resource else h
  h.recordAt resource idSentinelMetric (ops.ofInt (factIdHash id)) ts

structure Text where
  title : String
  why : String
  evidence : List Evidence
  remediation : RemediationPlan

structure Wording (F : Type) where
  disk : DiskFact F → Verdict F → Text
  container : ContainerDiskFact F → Verdict F → Text

structure FillFact (F : Type) where
  findingType : String
  resource : String
  usedPct : F
  text : Verdict F → Text

variable (wording : Wording F)

def DiskFact.fill (f : DiskFact F) : FillFact F := ⟨"disk_fill_eta", f.mount, f.usedPct, wording.disk f⟩

def ContainerDiskFact.fill (f : ContainerDiskFact F) : FillFact F :=
  ⟨f.runtime.findingType, resourceId f.runtime f.name, f.usedPct, wording.container f⟩

def FillFact.key (nodeId : String) (f : FillFact F) : Key := (f.findingType, ⟨nodeId, some f.resource⟩)

def FillFact.alarm (h : MetricsHistory F) (f : FillFact F) : Option (Verdict F) :=
  if (ops.lt f.usedPct (ops.ofInt minUsedPct) && !ops.le (ops.ofInt fillTargetPct) f.usedPct) = true then none
  else computeVerdict ops (h.samples f.resource diskMetric) f.usedPct (ops.ofInt fillTargetPct)

/-- What the analysis asks of a series before it says that a disk fills up. -/
structure Telling (series : List (MetricSample F)) (usedPct : F) : Prop where
  many : minSamples ≤ series.length
  long : ∀ front ∈ series.head?, ∀ back ∈ series.getLast?, minSpanMinutes ≤ (back.ts - front.ts).tdiv 60000
  half : ops.lt usedPct (ops.ofInt minUsedPct) = false ∨ ops.le (ops.ofInt fillTargetPct) usedPct = true
  steep : ∃ slope intercept, linearFit ops series = some (slope, intercept) ∧ (ops.le (ops.ofInt fillTargetPct) usedPct = true ∨
    ops.le (ops.mul slope (ops.ofInt 3600)) (ops.ofInt 0) = false ∧ ops.lt (ops.ofInt maxHorizonHours)
      (ops.div (ops.sub (ops.ofInt fillTargetPct) usedPct) (ops.mul slope (ops.ofInt 3600))) = false)

variable {ops} in
theorem Telling.alarm {h : MetricsHistory F} {f : FillFact F} (telling : Telling ops (h.samples f.resource diskMetric) f.usedPct) :
    (f.alarm ops h).isSome = true := by
  obtain ⟨slope, intercept, fitted, steep⟩ := telling.steep
  have some_ : h.samples f.resource diskMetric ≠ [] := by
    intro none
    have many := telling.many
    rw [none] at many
    simp [minSamples] at many
  have half : ¬(ops.lt f.usedPct (ops.ofInt minUsedPct) && !ops.le (ops.ofInt fillTargetPct) f.usedPct) = true := by
    rcases telling.half with used | full
    · simp [used]
    · simp [full]
  rw [FillFact.alarm, if_neg half, computeVerdict, if_neg (Nat.not_lt.mpr telling.many), List.head?_eq_some_head some_,
    List.getLast?_eq_some_getLast some_]
  have long := telling.long _ (List.head?_eq_some_head some_) _ (List.getLast?_eq_some_getLast some_)
  dsimp only
  rw [if_neg (Int.not_lt.mpr long), fitted]
  dsimp only
  rcases steep with full | ⟨rising, near⟩
  · rw [if_pos full]
    split <;> rfl
  · rw [rising, near]
    split <;> rfl

def FillFact.finding (nodeId : String) (f : FillFact F) (v : Verdict F) : Finding :=
  ⟨f.findingType, v.severity, (f.text v).title, (f.text v).why, (f.text v).evidence, (f.text v).remediation, ⟨nodeId, some f.resource⟩⟩

/-- Both `analyze`, but for what is suppressed. -/
def analyze (nodeId : String) (h : MetricsHistory F) (current : List (FillFact F)) : List Finding :=
  current.filterMap fun f => (f.alarm ops h).map (f.finding nodeId)

end Predictive
