import WolfStack.Storage.S3Sync

/-! Does a copy job list every object of its source? A windowed pass reaches back by
hours; what has to be covered reaches back to the start of the last pass that worked. -/

namespace Storage

structure Pass where
  started : Nat
  ok : Bool
  window : Option Nat
deriving DecidableEq

/-- The object was there when the pass began, and is not older than its window. -/
def Pass.Lists (pass : Pass) (created : Nat) : Prop :=
  created ≤ pass.started ∧ ∀ hours, pass.window = some hours → pass.started - created ≤ hours * 3600

def Covered (passes : List Pass) (created : Nat) : Prop := ∃ pass ∈ passes, pass.ok = true ∧ pass.Lists created

def Waiting (passes : List Pass) (created : Nat) : Prop := ∀ pass ∈ passes, pass.ok = true → pass.started < created

def Gapless (passes : List Pass) : Prop := ∀ created, Covered passes created ∨ Waiting passes created

/-- A job as `save_job` first stores it. -/
def newCopyJob (id name : String) (src dst : SyncEndpoint) (schedule : SyncSchedule) (window : SyncWindow) : SyncJob where
  id := id
  name := name
  enabled := true
  src := src
  dst := dst
  mode := .copy
  schedule := schedule
  window := window
  lastRuns := []
  lastSuccessEpoch := 0
  lastPassSecs := 0
  lagAlerted := false
  lastCronFireMinute := 0

/-- What may happen to the job. A pass is started by the scheduler or by hand, at any
time; `saved` is false where its record does not stay in the file. -/
inductive Event where
  | wait (secs : Nat)
  | tick
  | pass (took : Nat) (attempt : Attempt) (saved : Bool)
  | configure (schedule : SyncSchedule) (window : SyncWindow)

/-- The clock, the stored job, and the passes so far, the latest first. -/
structure Mirror where
  now : Nat
  job : SyncJob
  passes : List Pass

namespace Mirror
variable (cronMatches : String → Nat → Bool)

def step (m : Mirror) : Event → Mirror
  | .wait secs => { m with now := m.now + secs }
  | .tick => { m with job := (dueJob cronMatches m.job m.now).1 }
  | .configure schedule window => { m with job := { m.job with schedule, window } }
  | .pass took attempt saved =>
    match runPass m.job m.now (m.now + took) attempt with
    | .error _ => m
    | .ok record =>
      { now := m.now + took
        job := if saved then recordPass record m.job else m.job
        passes := ⟨m.now, record.ok, effectiveWindowHours m.job⟩ :: m.passes }

def lastStart (m : Mirror) : Option Nat := (m.passes.find? (·.ok)).map (·.started)

def GaplessThroughout (m : Mirror) : List Event → Prop
  | [] => Gapless m.passes
  | event :: events => Gapless m.passes ∧ (m.step cronMatches event).GaplessThroughout events

end Mirror

def Attempt.Works (attempt : Attempt) : Prop :=
  attempt.srcFound = true ∧ attempt.dstFound = true ∧ attempt.logDir = .ok () ∧
    ∃ rclone, attempt.launch = .ok rclone ∧ rclone.exitCode = 0

/-- A pass that works begins within its window of the start of the one before. -/
def Event.InTime (m : Mirror) : Event → Prop
  | .pass _ attempt _ => attempt.Works →
      ∀ hours last, effectiveWindowHours m.job = some hours → m.lastStart = some last → m.now ≤ last + 1 + hours * 3600
  | _ => True

def Mirror.InTimeThroughout (cronMatches : String → Nat → Bool) (m : Mirror) : List Event → Prop
  | [] => True
  | event :: events => event.InTime m ∧ (m.step cronMatches event).InTimeThroughout cronMatches events

structure Mirror.Sound (m : Mirror) : Prop where
  copies : m.job.mode = .copy
  past : ∀ pass ∈ m.passes, pass.started ≤ m.now
  first : m.lastStart = none → m.job.lastSuccessEpoch = 0
  latest : ∀ last, m.lastStart = some last →
    (∃ pass ∈ m.passes, pass.ok = true ∧ pass.started = last) ∧ ∀ pass ∈ m.passes, pass.ok = true → pass.started ≤ last

section
variable {cronMatches : String → Nat → Bool} {m : Mirror}

theorem runPass_works {job : SyncJob} {started ended : Nat} {attempt : Attempt} :
    attempt.Works ↔ ∃ record, runPass job started ended attempt = .ok record ∧ record.ok = true := by
  obtain ⟨srcFound, dstFound, logDir, launch⟩ := attempt
  constructor
  · rintro ⟨rfl, rfl, rfl, rclone, rfl, good⟩
    exact ⟨_, rfl, decide_eq_true good⟩
  · rintro ⟨record, ran, good⟩
    unfold runPass at ran
    split at ran
    · cases ran
    · rename_i src
      split at ran
      · cases ran
      · rename_i dst
        split at ran
        · cases ran
        · cases ran
        · rename_i rclone placed launched
          cases ran
          exact ⟨by simpa using src, by simpa using dst, placed, rclone, launched, of_decide_eq_true good⟩

theorem step_pass {took : Nat} {attempt : Attempt} {saved : Bool} {record : SyncRunRecord}
    (ran : runPass m.job m.now (m.now + took) attempt = .ok record) :
    m.step cronMatches (.pass took attempt saved) =
      { now := m.now + took
        job := if saved then recordPass record m.job else m.job
        passes := ⟨m.now, record.ok, effectiveWindowHours m.job⟩ :: m.passes } := by
  rw [Mirror.step, ran]

theorem step_refused {took : Nat} {attempt : Attempt} {saved : Bool} {e : String}
    (refused : runPass m.job m.now (m.now + took) attempt = .error e) :
    m.step cronMatches (.pass took attempt saved) = m := by
  rw [Mirror.step, refused]

theorem Mirror.Sound.step (sound : m.Sound) (event : Event) : (m.step cronMatches event).Sound := by
  obtain ⟨copies, past, first, latest⟩ := sound
  cases event with
  | wait secs => exact ⟨copies, fun pass member => Nat.le_add_right_of_le (past pass member), first, latest⟩
  | tick =>
    obtain ⟨mode, success⟩ := dueJob_keeps cronMatches m.job m.now
    exact ⟨mode.trans copies, past, fun none_ => success.trans (first none_), latest⟩
  | configure schedule window => exact ⟨copies, past, first, latest⟩
  | pass took attempt saved =>
    cases ran : runPass m.job m.now (m.now + took) attempt with
    | error e => rw [step_refused ran]; exact ⟨copies, past, first, latest⟩
    | ok record =>
      rw [step_pass ran]
      refine ⟨?_, ?_, ?_, ?_⟩
      · cases saved <;> exact copies
      · intro pass member
        rcases List.mem_cons.mp member with rfl | member
        · exact Nat.le_add_right _ _
        · exact Nat.le_add_right_of_le (past pass member)
      · intro never
        cases worked : record.ok with
        | true => simp [Mirror.lastStart, worked] at never
        | false =>
          have unstarted : m.lastStart = none := by simpa [Mirror.lastStart, worked] using never
          cases saved with
          | false => exact first unstarted
          | true => simpa [recordPass, worked] using first unstarted
      · intro last started
        cases worked : record.ok with
        | true =>
          obtain rfl : m.now = last := by simpa [Mirror.lastStart, worked] using started
          refine ⟨⟨_, List.mem_cons_self, rfl, rfl⟩, fun pass member _ => ?_⟩
          rcases List.mem_cons.mp member with rfl | member
          · exact Nat.le_refl _
          · exact past pass member
        | false =>
          have before : m.lastStart = some last := by simpa [Mirror.lastStart, worked] using started
          obtain ⟨⟨pass, member, good, began⟩, others⟩ := latest last before
          refine ⟨⟨pass, List.mem_cons_of_mem _ member, good, began⟩, fun pass member good => ?_⟩
          rcases List.mem_cons.mp member with rfl | member
          · cases good
          · exact others pass member good

theorem gapless_failed {passes : List Pass} {pass : Pass} (failed : pass.ok = false) :
    Gapless (pass :: passes) ↔ Gapless passes := by
  have covered (created : Nat) : Covered (pass :: passes) created ↔ Covered passes created := by
    simp [Covered, failed]
  have waiting (created : Nat) : Waiting (pass :: passes) created ↔ Waiting passes created := by
    simp [Waiting, failed]
  simp only [Gapless, covered, waiting]

theorem gapless_worked (sound : m.Sound) (gapless : Gapless m.passes) :
    Gapless (⟨m.now, true, effectiveWindowHours m.job⟩ :: m.passes) ↔
      ∀ hours last, effectiveWindowHours m.job = some hours → m.lastStart = some last → m.now ≤ last + 1 + hours * 3600 := by
  constructor
  · intro after hours last windowed started
    obtain ⟨-, others⟩ := sound.latest last started
    -- an object created just after the last pass that worked had begun
    rcases after (last + 1) with ⟨pass, member, good, there, reached⟩ | waiting
    · rcases List.mem_cons.mp member with rfl | member
      · have back := reached hours windowed
        dsimp only at back
        omega
      · have early := others pass member good
        omega
    · have early := waiting _ List.mem_cons_self rfl
      dsimp only at early
      omega
  · intro reaches created
    rcases Nat.lt_or_ge m.now created with future | there
    · right
      intro pass member _
      rcases List.mem_cons.mp member with rfl | member
      · exact future
      · exact Nat.lt_of_le_of_lt (sound.past pass member) future
    · by_cases listed : ∀ hours, effectiveWindowHours m.job = some hours → m.now - created ≤ hours * 3600
      · exact .inl ⟨_, List.mem_cons_self, rfl, there, listed⟩
      · push Not at listed
        obtain ⟨hours, windowed, old⟩ := listed
        cases started : m.lastStart with
        | none => simp [effectiveWindowHours, sound.first started] at windowed
        | some last =>
          have reach := reaches hours last windowed started
          have early : created ≤ last := by omega
          -- the last pass that worked began later, so the object was covered by then
          rcases gapless created with ⟨pass, member, good, lists⟩ | waiting
          · exact .inl ⟨pass, List.mem_cons_of_mem _ member, good, lists⟩
          · obtain ⟨⟨pass, member, good, began⟩, -⟩ := sound.latest last started
            have late := waiting pass member good
            omega

theorem gapless_step (sound : m.Sound) (gapless : Gapless m.passes) (event : Event) :
    Gapless (m.step cronMatches event).passes ↔ event.InTime m := by
  cases event with
  | wait secs => exact iff_of_true gapless trivial
  | tick => exact iff_of_true gapless trivial
  | configure schedule window => exact iff_of_true gapless trivial
  | pass took attempt saved =>
    have works := @runPass_works m.job m.now (m.now + took) attempt
    cases ran : runPass m.job m.now (m.now + took) attempt with
    | error e =>
      rw [step_refused ran]
      refine iff_of_true gapless fun worked => ?_
      obtain ⟨record, ran', -⟩ := works.mp worked
      rw [ran] at ran'
      cases ran'
    | ok record =>
      rw [step_pass ran]
      cases worked : record.ok with
      | false =>
        rw [gapless_failed rfl]
        refine iff_of_true gapless fun works' => ?_
        obtain ⟨record', ran', good⟩ := works.mp works'
        obtain rfl : record = record' := Except.ok.inj (ran.symm.trans ran')
        rw [worked] at good
        cases good
      | true =>
        rw [gapless_worked sound gapless]
        constructor
        · intro reaches _
          exact reaches
        · intro inTime
          exact inTime (works.mpr ⟨record, ran, worked⟩)

theorem gaplessThroughout_iff (sound : m.Sound) (gapless : Gapless m.passes) (events : List Event) :
    m.GaplessThroughout cronMatches events ↔ m.InTimeThroughout cronMatches events := by
  induction events generalizing m with
  | nil => exact iff_of_true gapless trivial
  | cons event events ih =>
    rw [Mirror.GaplessThroughout, Mirror.InTimeThroughout, ← @gapless_step cronMatches m sound gapless event]
    constructor
    · rintro ⟨-, later⟩
      have next : Gapless (m.step cronMatches event).passes := by
        cases events with
        | nil => exact later
        | cons _ _ => exact later.1
      exact ⟨next, (ih (sound.step event) next).mp later⟩
    · rintro ⟨next, later⟩
      exact ⟨gapless, (ih (sound.step event) next).mpr later⟩

end

def Mirror.created (now : Nat) (job : SyncJob) : Mirror := ⟨now, job, []⟩

/-- Whatever happens to a copy job, no gap opens exactly as long as every pass that works
begins within its window of the start of the last one that did. -/
theorem coverage_iff (cronMatches : String → Nat → Bool) (now : Nat) (id name : String) (src dst : SyncEndpoint)
    (schedule : SyncSchedule) (window : SyncWindow) (events : List Event) :
    (Mirror.created now (newCopyJob id name src dst schedule window)).GaplessThroughout cronMatches events ↔
      (Mirror.created now (newCopyJob id name src dst schedule window)).InTimeThroughout cronMatches events := by
  apply gaplessThroughout_iff
  · exact ⟨rfl, nofun, fun _ => rfl, nofun⟩
  · exact fun created => .inr nofun

def stalled (exitCode : Int) : Attempt where
  srcFound := true
  dstFound := true
  logDir := .ok ()
  launch := .ok ⟨exitCode, ⟨0, "", 0⟩, none⟩

def interrupted : List Event :=
  [.pass 108000 (stalled 0) true, .wait 300, .pass 60 (stalled 1) true, .wait 300, .pass 108000 (stalled 0) true]

def mirrorJob : SyncJob :=
  newCopyJob "t" "assets" ⟨"wolfstack:a", "b1"⟩ ⟨"wolfstack:c", "b2"⟩ (.backToBack 5) .auto

/-- The third pass goes by the duration of the second, and looks back a day. -/
theorem interrupted_gap : ¬(Mirror.created 1000000 mirrorJob).GaplessThroughout (fun _ _ => false) interrupted := by
  have passes : (interrupted.foldl (Mirror.step fun _ _ => false) (Mirror.created 1000000 mirrorJob)).passes =
      [⟨1108660, true, some 24⟩, ⟨1108300, false, some 120⟩, ⟨1000000, true, none⟩] := by decide +kernel
  rintro ⟨-, -, -, -, -, gapless⟩
  replace gapless : Gapless (interrupted.foldl (Mirror.step fun _ _ => false) (Mirror.created 1000000 mirrorJob)).passes :=
    gapless
  rw [passes] at gapless
  rcases gapless 1000001 with ⟨pass, member, good, there, reached⟩ | waiting
  · simp only [List.mem_cons, List.not_mem_nil, or_false] at member
    rcases member with rfl | rfl | rfl
    · exact absurd (reached 24 rfl) (by decide)
    · cases good
    · exact absurd there (by decide)
  · exact absurd (waiting _ List.mem_cons_self rfl) (by decide)

end Storage
