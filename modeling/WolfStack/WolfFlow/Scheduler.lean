import WolfStack.WolfFlow.Cron
import WolfStack.WolfFlow.Workflow

/-! When the scheduler starts a workflow. Times are nanoseconds since the epoch, and minutes
are counted from there. -/

namespace WolfFlow

def nanosPerMinute : Nat := 60000000000

def minuteOf (time : Nat) : Nat := time / nanosPerMinute

/-- What the chrono crate makes of a time. -/
structure Chrono where
  calendar : Nat → CalendarMinute
  /-- The date of a minute, and the hour with the minute. -/
  date : Nat → List Char
  clock : Nat → List Char
  /-- What RFC 3339 shows after the minute. -/
  seconds : Nat → List Char
  plain : ∀ m, ' ' ∉ date m ∧ 'T' ∉ date m

namespace Chrono
variable (chrono : Chrono)

/-- `%Y-%m-%d %H:%M`. -/
def minuteText (m : Nat) : List Char := chrono.date m ++ ' ' :: chrono.clock m

def toRfc3339 (time : Nat) : List Char :=
  chrono.date (minuteOf time) ++ 'T' :: (chrono.clock (minuteOf time) ++ chrono.seconds time)

end Chrono

/-- A run of the history, which `execute_workflow` has written. -/
structure WorkflowRun (chrono : Chrono) where
  workflowId : String
  trigger : String
  startedAt : List Char
  written : ∃ time, startedAt = chrono.toRfc3339 time

variable {chrono : Chrono} {w : Workflow} {workflows : List Workflow} {runs : List (WorkflowRun chrono)} {now : Nat}

def Workflow.matches_ (chrono : Chrono) (w : Workflow) (minute : Nat) : Bool :=
  w.enabled && w.schedule.any fun expr => cronMatches expr.toList (chrono.calendar minute)

def alreadyRan (runs : List (WorkflowRun chrono)) (w : Workflow) (now : Nat) : Bool :=
  runs.any fun r => r.workflowId = w.id && r.trigger = "scheduled" && (chrono.minuteText (minuteOf now)).isPrefixOf r.startedAt

def getDueWorkflows (chrono : Chrono) (now : Nat) (workflows : List Workflow) (runs : List (WorkflowRun chrono)) : List Workflow :=
  workflows.filter fun w => w.matches_ chrono (minuteOf now) && !alreadyRan runs w now

def Paced (calls : Nat → Nat) : Prop := ∀ i, calls i + 60000000000 ≤ calls (i + 1) ∧ calls (i + 1) < calls i + 61000000000

/-- Each minute that a workflow is scheduled for has one call that starts it. -/
def OncePerMinute (chrono : Chrono) (workflows : List Workflow) (calls : Nat → Nat) (stored : Nat → List (WorkflowRun chrono)) : Prop :=
  ∀ w ∈ workflows, ∀ m, minuteOf (calls 0) < m → w.matches_ chrono m = true →
    ∃! i, minuteOf (calls i) = m ∧ w ∈ getDueWorkflows chrono (calls i) workflows (stored i)

def RanInMinute (runs : List (WorkflowRun chrono)) (w : Workflow) (now : Nat) : Prop :=
  ∃ r ∈ runs, r.workflowId = w.id ∧ r.trigger = "scheduled" ∧
    ∃ time, minuteOf time = minuteOf now ∧ r.startedAt = chrono.toRfc3339 time

def NotAgain (workflows : List Workflow) (runs : List (WorkflowRun chrono)) (now : Nat) : Prop :=
  ∀ w ∈ workflows, RanInMinute runs w now → w ∉ getDueWorkflows chrono now workflows runs

theorem minuteText_differs (chrono : Chrono) (m time : Nat) : (chrono.minuteText m).isPrefixOf (chrono.toRfc3339 time) = false := by
  rw [Bool.eq_false_iff]
  intro begins
  obtain ⟨rest, same⟩ := List.isPrefixOf_iff_prefix.mp begins
  rw [Chrono.minuteText, Chrono.toRfc3339, List.append_assoc, List.cons_append] at same
  obtain ⟨middle, longer, after⟩ | ⟨middle, shorter, after⟩ := List.append_eq_append_iff.mp same
  · cases middle with
    | nil => exact absurd (List.cons.inj after).1 (by decide)
    | cons c middle =>
      obtain ⟨rfl, -⟩ := List.cons.inj after
      exact (chrono.plain (minuteOf time)).1 (longer ▸ List.mem_append_right _ List.mem_cons_self)
  · cases middle with
    | nil => exact absurd (List.cons.inj after).1 (by decide)
    | cons c middle =>
      obtain ⟨rfl, -⟩ := List.cons.inj after
      exact (chrono.plain m).2 (shorter ▸ List.mem_append_right _ List.mem_cons_self)

theorem alreadyRan_false (runs : List (WorkflowRun chrono)) (w : Workflow) (now : Nat) : alreadyRan runs w now = false := by
  rw [alreadyRan, List.any_eq_false]
  intro r _
  obtain ⟨time, written⟩ := r.written
  rw [written, minuteText_differs]
  simp

theorem mem_getDueWorkflows : w ∈ getDueWorkflows chrono now workflows runs ↔ w ∈ workflows ∧ w.matches_ chrono (minuteOf now) = true := by
  rw [getDueWorkflows, List.mem_filter, alreadyRan_false, Bool.not_false, Bool.and_true]

variable {calls : Nat → Nat} {stored : Nat → List (WorkflowRun chrono)}

theorem Paced.later (paced : Paced calls) {i j : Nat} (before : i < j) : calls i + 60000000000 ≤ calls j := by
  induction j with
  | zero => exact absurd before (Nat.not_lt_zero i)
  | succ j ih =>
    have step := (paced j).1
    rcases Nat.lt_succ_iff_lt_or_eq.mp before with earlier | rfl
    · have reached := ih earlier
      omega
    · exact step

theorem Paced.minute_inj (paced : Paced calls) {i j : Nat} (same : minuteOf (calls i) = minuteOf (calls j)) : i = j := by
  have apart : ∀ {i j : Nat}, i < j → minuteOf (calls i) ≠ minuteOf (calls j) := by
    intro i j before same
    have gap := paced.later before
    unfold minuteOf nanosPerMinute at same
    omega
  rcases Nat.lt_trichotomy i j with before | same_ | after
  · exact absurd same (apart before)
  · exact same_
  · exact absurd same.symm (apart after)

theorem oncePerMinute_iff (paced : Paced calls) : OncePerMinute chrono workflows calls stored ↔
    ∀ w ∈ workflows, ∀ m, minuteOf (calls 0) < m → w.matches_ chrono m = true → ∃ i, minuteOf (calls i) = m := by
  constructor
  · intro once w member m later matched
    obtain ⟨i, ⟨called, -⟩, -⟩ := once w member m later matched
    exact ⟨i, called⟩
  · intro called w member m later matched
    obtain ⟨i, rfl⟩ := called w member m later matched
    exact ⟨i, ⟨rfl, mem_getDueWorkflows.mpr ⟨member, matched⟩⟩, fun j other => paced.minute_inj other.1⟩

theorem notAgain_iff : NotAgain workflows runs now ↔
    ∀ w ∈ workflows, RanInMinute runs w now → w.matches_ chrono (minuteOf now) = false := by
  constructor
  · intro never w member ran
    rw [Bool.eq_false_iff]
    exact fun matched => never w member ran (mem_getDueWorkflows.mpr ⟨member, matched⟩)
  · intro silent w member ran due
    have matched := (mem_getDueWorkflows.mp due).2
    rw [silent w member ran] at matched
    cases matched

/-- Every scheduled minute has its run exactly where there is a call in each of them, and a run
keeps its workflow from being started again exactly where it is not scheduled for the minute
anyway. -/
theorem scheduled_once_iff (chrono : Chrono) (workflows : List Workflow) {calls : Nat → Nat} (paced : Paced calls)
    (stored : Nat → List (WorkflowRun chrono)) (runs : List (WorkflowRun chrono)) (now : Nat) :
    (OncePerMinute chrono workflows calls stored ↔
        ∀ w ∈ workflows, ∀ m, minuteOf (calls 0) < m → w.matches_ chrono m = true → ∃ i, minuteOf (calls i) = m) ∧
      (NotAgain workflows runs now ↔ ∀ w ∈ workflows, RanInMinute runs w now → w.matches_ chrono (minuteOf now) = false) :=
  ⟨oncePerMinute_iff paced, notAgain_iff⟩

def digit (n : Nat) : Char := Char.ofNat (48 + n % 10)

def digitsOf (count n : Nat) : List Char := (List.range count).reverse.map fun i => digit (n / 10 ^ i)

theorem digitsOf_plain (count n : Nat) : ' ' ∉ digitsOf count n ∧ 'T' ∉ digitsOf count n := by
  have plain : ∀ k < 10, Char.ofNat (48 + k) ≠ ' ' ∧ Char.ofNat (48 + k) ≠ 'T' := by decide
  constructor <;> intro member <;> obtain ⟨i, -, same⟩ := List.mem_map.mp member
  · exact (plain _ (Nat.mod_lt _ (by decide))).1 same
  · exact (plain _ (Nat.mod_lt _ (by decide))).2 same

/-- Year, month and day of a day since the epoch, in eras of 400 years that begin in March. -/
def civil (days : Nat) : Nat × Nat × Nat :=
  let z := days + 719468
  let dayOfEra := z % 146097
  let yearOfEra := (dayOfEra - dayOfEra / 1460 + dayOfEra / 36524 - dayOfEra / 146096) / 365
  let dayOfYear := dayOfEra - (365 * yearOfEra + yearOfEra / 4 - yearOfEra / 100)
  let mp := (5 * dayOfYear + 2) / 153
  let month := if mp < 10 then mp + 3 else mp - 9
  (yearOfEra + z / 146097 * 400 + (if month ≤ 2 then 1 else 0), month, dayOfYear - (153 * mp + 2) / 5 + 1)

def subseconds (nanos : Nat) : List Char :=
  if nanos = 0 then []
  else if nanos % 1000000 = 0 then '.' :: digitsOf 3 (nanos / 1000000)
  else if nanos % 1000 = 0 then '.' :: digitsOf 6 (nanos / 1000)
  else '.' :: digitsOf 9 nanos

def utc : Chrono where
  calendar m := ⟨m % 60, m / 60 % 24, (civil (m / 1440)).2.2, (civil (m / 1440)).2.1, (m / 1440 + 4) % 7⟩
  date m := digitsOf 4 (civil (m / 1440)).1 ++ '-' :: (digitsOf 2 (civil (m / 1440)).2.1 ++ '-' :: digitsOf 2 (civil (m / 1440)).2.2)
  clock m := digitsOf 2 (m / 60 % 24) ++ ':' :: digitsOf 2 (m % 60)
  seconds time := ':' :: digitsOf 2 (time / 1000000000 % 60) ++ subseconds (time % 1000000000) ++ "+00:00".toList
  plain m := by
    constructor <;> simp [digitsOf_plain]

example : String.ofList (utc.toRfc3339 1774180800000000000) = "2026-03-22T12:00:00+00:00" := by decide +kernel

def everyMinute : Workflow where
  id := "wf-1"
  steps := []
  target := .local_
  schedule := some "* * * * *"
  enabled := true
  maxRuntimeSecs := 0

theorem everyMinute_matches (m : Nat) : everyMinute.matches_ utc m = true := by
  have parts : Router.splitWhitespace "* * * * *".toList = [['*'], ['*'], ['*'], ['*'], ['*']] := by decide
  have any : ∀ value min max, fieldMatches ['*'] value min max = true := fun _ _ _ => rfl
  change cronMatches "* * * * *".toList (utc.calendar m) = true
  unfold cronMatches
  rw [parts]
  simp only [any, Bool.and_self]

def hourly : Workflow := { everyMinute with id := "wf-2", schedule := some "0 * * * *" }

/-- The first fifty rounds of the loop each take 0.4 seconds. -/
def slowing (i : Nat) : Nat := 10000000000 + i * 60000000000 + min i 50 * 400000000

def halfPast : Nat := 1774182610000000000

/-- In the minute of `halfPast` one workflow was run by hand, and the other as a scheduled run that came late. -/
def pastRuns : List (WorkflowRun utc) :=
  [⟨"wf-1", "manual", utc.toRfc3339 halfPast, ⟨_, rfl⟩⟩, ⟨"wf-2", "scheduled", utc.toRfc3339 halfPast, ⟨_, rfl⟩⟩]

theorem scheduled_once_sample :
    OncePerMinute utc [everyMinute, hourly] slowing (fun _ => pastRuns) ∧ NotAgain [everyMinute, hourly] pastRuns halfPast := by
  have paced : Paced slowing := fun i => by
    unfold slowing
    omega
  obtain ⟨once, again⟩ := scheduled_once_iff utc [everyMinute, hourly] paced (fun _ => pastRuns) pastRuns halfPast
  refine ⟨once.mpr fun w _ m _ _ => ⟨m, ?_⟩, again.mpr (List.forall_mem_cons.mpr ⟨?_, List.forall_mem_singleton.mpr ?_⟩)⟩
  · unfold minuteOf nanosPerMinute slowing
    omega
  · rintro ⟨r, member, named, scheduled, -⟩
    rcases List.mem_pair.mp member with rfl | rfl
    · exact absurd scheduled (by decide)
    · exact absurd named (by decide)
  · intro _
    decide +kernel

/-- Calls that drift past a minute, and a run of the minute that a call comes in. -/
theorem scheduled_once_drift :
    ¬(OncePerMinute utc [everyMinute] (fun i => 59500000000 + i * 60600000000) (fun _ => []) ∧
        ∀ runs : List (WorkflowRun utc), NotAgain [everyMinute] runs 1774180800000000000) ∧
      ¬NotAgain [everyMinute] [⟨"wf-1", "scheduled", utc.toRfc3339 1774180801000000000, ⟨_, rfl⟩⟩] 1774180800000000000 := by
  constructor
  · rintro ⟨once, -⟩
    obtain ⟨i, ⟨called, -⟩, -⟩ := once everyMinute List.mem_cons_self 1 (by decide) (everyMinute_matches 1)
    unfold minuteOf nanosPerMinute at called
    cases i with
    | zero => exact absurd called (by decide)
    | succ i =>
      dsimp only at called
      omega
  · intro never
    have silent := notAgain_iff.mp never everyMinute List.mem_cons_self ⟨_, List.mem_cons_self, rfl, rfl, 1774180801000000000, by decide, rfl⟩
    rw [everyMinute_matches] at silent
    cases silent

end WolfFlow
