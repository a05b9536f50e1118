import Mathlib.Data.List.Basic
import Mathlib.Algebra.Group.Nat.Defs

/-! Bucket copy jobs of `storage/s3_sync.rs`: which `--max-age` a pass runs with, what
a finished pass leaves in the stored job, and what the scheduler does in between. The
rclone command line beyond the window, its log and the endpoints' keys are left out;
what rclone came to is an input. Epoch seconds and counts are natural numbers. -/

namespace Storage

inductive SyncMode where
  | copy
  | sync
deriving DecidableEq, Repr

inductive SyncSchedule where
  | backToBack (gapMinutes : UInt32)
  | cron (expr : String)
  | manual
deriving DecidableEq, Repr

inductive SyncWindow where
  | auto
  | maxAgeHours (hours : UInt32)
  | full
deriving DecidableEq, Repr

structure SyncEndpoint where
  remoteId : String
  bucket : String
deriving DecidableEq, Repr

structure ParsedStats where
  objects : Nat
  bytesHuman : String
  errors : Nat
deriving DecidableEq, Repr

structure SyncRunRecord where
  startedEpoch : Nat
  endedEpoch : Nat
  ok : Bool
  exitCode : Int
  stats : ParsedStats
  message : String
  window : String
deriving DecidableEq, Repr

structure SyncJob where
  id : String
  name : String
  enabled : Bool
  src : SyncEndpoint
  dst : SyncEndpoint
  mode : SyncMode
  schedule : SyncSchedule
  window : SyncWindow
  lastRuns : List SyncRunRecord
  lastSuccessEpoch : Nat
  lastPassSecs : Nat
  lagAlerted : Bool
  lastCronFireMinute : Nat
deriving DecidableEq, Repr

def runHistoryKept : Nat := 20

def runTimeoutSecs : Nat := 60 * 60 * 60

/-- `u64::div_ceil`. -/
def divCeil (n d : Nat) : Nat := (n + (d - 1)) / d

/-- The `--max-age` of a pass in hours; `none` for a full pass. The product wraps. -/
def effectiveWindowHours (job : SyncJob) : Option Nat :=
  if job.mode = .sync ∨ job.lastSuccessEpoch = 0 then none
  else match job.window with
    | .full => none
    | .maxAgeHours hours => some hours.toNat
    | .auto => some (max (divCeil (job.lastPassSecs * 4 % 2 ^ 64) 3600) 24)

def windowLabel : Option Nat → String
  | some hours => s!"{hours}h"
  | none => "full"

/-- What running rclone came to: its exit code, its statistics, and the last line of its
log or of its launcher that reads like an error. -/
structure Rclone where
  exitCode : Int
  stats : ParsedStats
  lastError : Option String

def Rclone.ok (rclone : Rclone) : Bool := rclone.exitCode = 0

def passMessage (rclone : Rclone) : String :=
  if rclone.exitCode = 0 then "OK"
  else if rclone.exitCode = 124 then s!"Pass exceeded the {runTimeoutSecs / 3600}h ceiling and was stopped"
  else rclone.lastError.getD s!"rclone exited with code {rclone.exitCode}"

/-- What a pass finds on its way: whether the remotes and the log directory are there,
and how running rclone went. -/
structure Attempt where
  srcFound : Bool
  dstFound : Bool
  logDir : Except String Unit
  launch : Except String Rclone

/-- `run_job` up to the finished record. -/
def runPass (job : SyncJob) (started ended : Nat) (attempt : Attempt) : Except String SyncRunRecord :=
  if attempt.srcFound = false then .error s!"Source remote '{job.src.remoteId}' no longer exists"
  else if attempt.dstFound = false then .error s!"Destination remote '{job.dst.remoteId}' no longer exists"
  else match attempt.logDir, attempt.launch with
    | .error e, _ => .error e
    | .ok (), .error e => .error s!"Failed to launch rclone: {e}"
    | .ok (), .ok rclone => .ok
        { startedEpoch := started
          endedEpoch := ended
          ok := rclone.ok
          exitCode := rclone.exitCode
          stats := rclone.stats
          message := passMessage rclone
          window := windowLabel (effectiveWindowHours job) }

def recordPass (record : SyncRunRecord) (stored : SyncJob) : SyncJob :=
  { stored with
    lastRuns := (record :: stored.lastRuns).take runHistoryKept
    lastPassSecs := record.endedEpoch - record.startedEpoch
    lastSuccessEpoch := if record.ok then record.endedEpoch else stored.lastSuccessEpoch
    lagAlerted := if record.ok then false else stored.lagAlerted }

structure SyncAlert where
  title : String
  body : String
deriving DecidableEq, Repr

/-- Is a pass due, and which minute does a cron trigger then leave in the job? -/
def dueNow (cronMatches : String → Nat → Bool) (job : SyncJob) (now : Nat) : Bool × Nat :=
  match job.schedule with
  | .backToBack gapMinutes =>
    let lastFinished := (job.lastRuns.head?.map (·.endedEpoch)).getD 0
    (decide (lastFinished + gapMinutes.toNat * 60 ≤ now), job.lastCronFireMinute)
  | .cron expr =>
    if now / 60 ≠ job.lastCronFireMinute ∧ cronMatches expr now = true then (true, now / 60)
    else (false, job.lastCronFireMinute)
  | .manual => (false, job.lastCronFireMinute)

def lagGapSecs : SyncSchedule → Option Nat
  | .backToBack gapMinutes => some (gapMinutes.toNat * 60)
  | .cron _ => some 3600
  | .manual => none

def lagThreshold (job : SyncJob) (gapSecs : Nat) : Nat := max (3 * (job.lastPassSecs + gapSecs)) (2 * 3600)

def lastResult (job : SyncJob) : String := (job.lastRuns.head?.map (·.message)).getD "never ran"

def lagAlert (job : SyncJob) (lag threshold : Nat) : SyncAlert where
  title := s!"S3 sync job falling behind: {job.name}"
  body := s!"“{job.name}” last completed successfully {lag / 3600} hours ago (threshold {threshold / 3600} hours).\n\n" ++
    s!"Source:      {job.src.remoteId} / {job.src.bucket}\n" ++
    s!"Destination: {job.dst.remoteId} / {job.dst.bucket}\n" ++
    s!"Last result: {lastResult job}\n\n" ++
    "Check the job's log under Storage → Bucket Sync."

/-- `due_jobs_and_alerts` on one job that is not running. -/
def dueJob (cronMatches : String → Nat → Bool) (job : SyncJob) (now : Nat) : SyncJob × Bool × Option SyncAlert :=
  if job.enabled = false then (job, false, none)
  else
    let (due, minute) := dueNow cronMatches job now
    let fired := { job with lastCronFireMinute := minute }
    match lagGapSecs job.schedule with
    | none => (fired, due, none)
    | some gapSecs =>
      let threshold := lagThreshold job gapSecs
      if 0 < job.lastSuccessEpoch ∧ job.lagAlerted = false ∧ threshold < now - job.lastSuccessEpoch then
        ({ fired with lagAlerted := true }, due, some (lagAlert job (now - job.lastSuccessEpoch) threshold))
      else (fired, due, none)

section
variable (cronMatches : String → Nat → Bool) (job : SyncJob) (now : Nat) (record : SyncRunRecord)


theorem dueJob_keeps : (dueJob cronMatches job now).1.mode = job.mode ∧
    (dueJob cronMatches job now).1.lastSuccessEpoch = job.lastSuccessEpoch := by
  unfold dueJob
  split
  · exact ⟨rfl, rfl⟩
  · dsimp only
    split
    · exact ⟨rfl, rfl⟩
    · split <;> exact ⟨rfl, rfl⟩

end

end Storage
