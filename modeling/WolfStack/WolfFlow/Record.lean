import WolfStack.WolfFlow.Execution

/-! What a run leaves in its record. Before each further attempt at a step, what is there under
the name of the step is taken out. -/

namespace WolfFlow
open Cluster (Node)

/-- What one turn of the loop comes to. Looking for targets in vain counts as an attempt. -/
inductive Happening where
  | executed (step : WorkflowStep) (attempts : Nat) (results : List StepResult)
  | ranOut

variable {w : Workflow} {step : WorkflowStep} {target : Target} {targets : List Node} {round : Round} {numbers : Numbers}

def attemptResults (step : WorkflowStep) (target : Target) (targets : List Node) (met : Attempt) : List StepResult :=
  ((stepTasks step target targets met.nodes).zipIdx.map fun (task, i) => task.result step (met.outcome i)).map Prod.fst

def succeeded (results : List StepResult) : Bool := results.all fun r => r.status ≠ .failed

/-- How many attempts there are when so many are left, and the results of the last. -/
def lastAttempt (step : WorkflowStep) (target : Target) (targets : List Node) (round : Round) : Nat → Nat → Nat × List StepResult
  | 0, made => (made, [])
  | left + 1, made =>
    let results := attemptResults step target targets (round.attempts made)
    if succeeded results then (made + 1, results)
    else if left = 0 then (made + 1, results)
    else lastAttempt step target targets round left (made + 1)

namespace Execution
variable (run : Execution)

/-- What a turn adds to the record of a condition or of a step without targets. -/
def added (next : Execution) : List StepResult := next.steps.drop run.steps.length

def dispatchHappens (w : Workflow) (step : WorkflowStep) (round : Round) : Happening :=
  let target := step.targetOverride.getD w.target
  match resolveTargets round.nodes target with
  | [] => .executed step 1 (run.added (run.untargeted step))
  | targets =>
    let (attempts, results) := lastAttempt step target targets round (step.retryCount + 1).toNat 0
    .executed step attempts results

def happens (numbers : Numbers) (w : Workflow) (round : Round) : Option Happening :=
  if run.aborted then none
  else match w.steps[run.stepIdx]? with
    | none => none
    | some step =>
      if 0 < w.maxRuntimeSecs ∧ w.maxRuntimeSecs * 1000000000 < round.elapsed then some .ranOut
      else match step.action with
        | .condition expression compareTo operator =>
          some (.executed step 1 (run.added (run.branch step numbers expression compareTo operator)))
        | .aiInvoke .. | .agentChat .. | .sqlQuery .. | .sendEmail .. | .other _ => some (run.dispatchHappens w step round)

end Execution

def historyFrom (numbers : Numbers) (w : Workflow) : Execution → List Round → List Happening
  | _, [] => []
  | run, round :: rounds => (run.happens numbers w round).toList ++ historyFrom numbers w (run.turn numbers w round) rounds

def history (numbers : Numbers) (w : Workflow) (rounds : List Round) : List Happening := historyFrom numbers w .start rounds

def ActionType.branches : ActionType → Bool
  | .condition .. => true
  | .aiInvoke .. | .agentChat .. | .sqlQuery .. | .sendEmail .. | .other _ => false

namespace Happening

def results : Happening → List StepResult
  | executed _ _ results => results
  | ranOut => []

/-- A step other than a condition has succeeded in its last attempt, and so has had one. -/
def Fulfilled : Happening → Prop
  | executed step attempts results => step.action.branches = false → 0 < attempts ∧ succeeded results = true
  | ranOut => True

/-- A step that is tried again has the name to itself among the results there are. -/
def Apart : Happening → Happening → Prop
  | executed earlier _ results, executed later attempts _ => 1 < attempts → earlier.name = later.name → results = []
  | _, _ => True

def Skipped : Happening → Prop
  | executed _ attempts _ => attempts = 0
  | ranOut => False

end Happening

/-- The record is what each execution has left in its last attempt, and the verdict is by that. -/
structure Faithful (past : List Happening) (run : Execution) : Prop where
  record : run.steps = past.flatMap Happening.results
  verdict : run.status = .completed ↔ run.aborted = false ∧ ∀ h ∈ past, h.Fulfilled

theorem result_named {task : Task} {outcome : Outcome} : (task.result step outcome).1.stepName = step.name := by
  unfold Task.result
  split <;> rfl

theorem attemptResults_named {met : Attempt} : ∀ r ∈ attemptResults step target targets met, r.stepName = step.name := by
  intro r member
  obtain ⟨pair, inside, rfl⟩ := List.mem_map.mp member
  obtain ⟨⟨task, i⟩, -, rfl⟩ := List.mem_map.mp inside
  exact result_named

theorem lastAttempt_named (left made : Nat) : ∀ r ∈ (lastAttempt step target targets round left made).2, r.stepName = step.name := by
  induction left generalizing made with
  | zero =>
    intro r member
    cases member
  | succ left ih =>
    rw [lastAttempt]
    split
    · exact attemptResults_named
    · split
      · exact attemptResults_named
      · exact ih (made + 1)

theorem lastAttempt_made (left made : Nat) : made < (lastAttempt step target targets round (left + 1) made).1 := by
  induction left generalizing made with
  | zero =>
    rw [lastAttempt]
    split
    · exact Nat.lt_succ_self made
    · exact Nat.lt_succ_self made
  | succ left ih =>
    rw [lastAttempt]
    split
    · exact Nat.lt_succ_self made
    · rw [if_neg (Nat.succ_ne_zero left)]
      exact (Nat.lt_succ_self made).trans (ih (made + 1))

namespace Execution
variable {run : Execution}

def kept (run : Execution) (step : WorkflowStep) (attempts : Nat) : List StepResult :=
  if attempts ≤ 1 then run.steps else run.steps.filter (·.stepName ≠ step.name)

structure Left (run : Execution) (step : WorkflowStep) (attempts : Nat) (results : List StepResult) (next : Execution) : Prop where
  named : ∀ r ∈ results, r.stepName = step.name
  steps : next.steps = run.kept step attempts ++ results
  hadFailure : next.hadFailure = (run.hadFailure || !succeeded results)
  aborted : next.aborted = (run.aborted || (!succeeded results && step.onFailure.aborts))

def collected (run : Execution) (step : WorkflowStep) (target : Target) (targets : List Node) (round : Round) (made : Nat) : Execution :=
  run.collect step made (stepTasks step target targets (round.attempts made).nodes) (attemptResults step target targets (round.attempts made))

theorem attempts_succ (left made : Nat) (run : Execution) : ∃ output,
    attempts step target targets round (left + 1) made run =
      if succeeded (attemptResults step target targets (round.attempts made)) then
        (run.collected step target targets round made).succeed step output
      else if left = 0 then (run.collected step target targets round made).fail step
      else attempts step target targets round left (made + 1) (run.collected step target targets round made) := by
  refine ⟨(((stepTasks step target targets (round.attempts made).nodes).zipIdx.map fun (task, i) =>
    task.result step ((round.attempts made).outcome i)).filterMap Prod.snd).getLast?, ?_⟩
  rw [attempts]
  simp only [collected, succeeded, attemptResults, List.all_map, Function.comp_def]

@[simp] theorem succeed_steps (output : Option StepOutput) : (run.succeed step output).steps = run.steps := by cases output <;> rfl

@[simp] theorem succeed_hadFailure (output : Option StepOutput) : (run.succeed step output).hadFailure = run.hadFailure := by cases output <;> rfl

@[simp] theorem succeed_aborted (output : Option StepOutput) : (run.succeed step output).aborted = run.aborted := by cases output <;> rfl

theorem collected_filter (made : Nat) : (run.collected step target targets round made).steps.filter (·.stepName ≠ step.name) =
    run.steps.filter (·.stepName ≠ step.name) := by
  have named := @attemptResults_named step target targets (round.attempts made)
  by_cases first : made = 0
  · simpa [collected, collect, first] using named
  · simpa [collected, collect, first] using named

theorem attempts_steps (left made : Nat) (run : Execution) : (attempts step target targets round (left + 1) made run).steps =
    (if (lastAttempt step target targets round (left + 1) made).1 = 1 then run.steps else run.steps.filter (·.stepName ≠ step.name)) ++
      (lastAttempt step target targets round (left + 1) made).2 := by
  have once : (if made + 1 = 1 then run.steps else run.steps.filter (·.stepName ≠ step.name)) ++
      attemptResults step target targets (round.attempts made) = (run.collected step target targets round made).steps := by
    simp [collected, collect]
  obtain ⟨output, unfolds⟩ := @attempts_succ step target targets round left made run
  rw [unfolds, lastAttempt]
  split
  · rw [succeed_steps, once]
  · split
    · rw [once]
      rfl
    · rename_i more
      obtain ⟨left, rfl⟩ := Nat.exists_eq_succ_of_ne_zero more
      have several : (lastAttempt step target targets round (left + 1) (made + 1)).1 ≠ 1 := by
        have := @lastAttempt_made step target targets round left (made + 1)
        omega
      rw [attempts_steps left (made + 1), if_neg several, if_neg several, collected_filter]
termination_by left

theorem attempts_verdict (left made : Nat) (run : Execution) :
    (attempts step target targets round (left + 1) made run).hadFailure =
      (run.hadFailure || !succeeded (lastAttempt step target targets round (left + 1) made).2) ∧
    (attempts step target targets round (left + 1) made run).aborted =
      (run.aborted || (!succeeded (lastAttempt step target targets round (left + 1) made).2 && step.onFailure.aborts)) := by
  obtain ⟨output, unfolds⟩ := @attempts_succ step target targets round left made run
  rw [unfolds, lastAttempt]
  split
  next well => simp [well, collected, collect]
  next badly =>
    split
    next => simp [badly, collected, collect, fail]
    next more =>
      obtain ⟨left, rfl⟩ := Nat.exists_eq_succ_of_ne_zero more
      exact attempts_verdict left (made + 1) (run.collected step target targets round made)
termination_by left

theorem attempts_left (count : Nat) : Left run step (lastAttempt step target targets round count 0).1 (lastAttempt step target targets round count 0).2
    (attempts step target targets round count 0 run) := by
  cases count with
  | zero =>
    refine ⟨fun r member => ?_, ?_, ?_, ?_⟩
    · cases member
    · simp [attempts, lastAttempt, kept]
    · simp [attempts, lastAttempt, succeeded]
    · simp [attempts, lastAttempt, succeeded]
  | succ left =>
    obtain ⟨failed, aborts⟩ := @attempts_verdict step target targets round left 0 run
    refine ⟨lastAttempt_named _ _, ?_, failed, aborts⟩
    have made := @lastAttempt_made step target targets round left 0
    have same : (lastAttempt step target targets round (left + 1) 0).1 = 1 ↔ (lastAttempt step target targets round (left + 1) 0).1 ≤ 1 := by omega
    rw [attempts_steps, kept]
    simp only [same]

inductive Turned (run : Execution) : Option Happening → Execution → Prop where
  | idle : Turned run none run
  | ranOut : Turned run (some .ranOut) { run with aborted := true }
  | executed {step : WorkflowStep} {attempts : Nat} {results : List StepResult} {next : Execution}
      (fits : step.action.branches = true → 0 < attempts ∧ succeeded results = true) (left : Left run step attempts results next) :
      Turned run (some (.executed step attempts results)) next

theorem Left.later {next : Execution} {attempts : Nat} {results : List StepResult} (left : Left run step attempts results next) (stepIdx : Nat) :
    Left run step attempts results { next with stepIdx } := ⟨left.named, left.steps, left.hadFailure, left.aborted⟩

theorem branch_left (expression compareTo operator : String) :
    Left run step 1 (run.added (run.branch step numbers expression compareTo operator)) (run.branch step numbers expression compareTo operator) := by
  refine ⟨?_, ?_, ?_, ?_⟩ <;> simp [branch, added, kept, succeeded]

theorem untargeted_left : Left run step 1 (run.added (run.untargeted step)) (run.untargeted step) := by
  refine ⟨?_, ?_, ?_, ?_⟩ <;> simp [untargeted, added, kept, succeeded, fail]

theorem dispatch_turned (plain : step.action.branches = false) :
    Turned run (some (run.dispatchHappens w step round)) (run.dispatch w step round) := by
  unfold dispatchHappens dispatch
  dsimp only
  cases resolveTargets round.nodes (step.targetOverride.getD w.target) with
  | nil => exact .executed (fun branches => by rw [plain] at branches; cases branches) untargeted_left
  | cons => exact .executed (fun branches => by rw [plain] at branches; cases branches) ((attempts_left _).later _)

theorem turn_turned : Turned run (run.happens numbers w round) (run.turn numbers w round) := by
  unfold happens turn
  by_cases stopped : run.aborted = true
  · rw [if_pos stopped, if_pos stopped]
    exact .idle
  · rw [if_neg stopped, if_neg stopped]
    cases found : w.steps[run.stepIdx]? with
    | none => exact .idle
    | some step =>
      dsimp only
      split
      · exact .ranOut
      · cases action : step.action with
        | condition =>
          refine .executed (fun _ => ⟨Nat.one_pos, ?_⟩) (branch_left _ _ _)
          simp [branch, added, succeeded]
        | _ => exact dispatch_turned (by rw [action]; rfl)

structure Tracks (past : List Happening) (run : Execution) : Prop where
  named : ∀ step attempts results, .executed step attempts results ∈ past → ∀ r ∈ results, r.stepName = step.name
  length : run.steps.length ≤ (past.flatMap Happening.results).length
  record : run.steps = past.flatMap Happening.results ↔ past.Pairwise Happening.Apart
  hadFailure : run.hadFailure = true ↔ ∃ h ∈ past, succeeded h.results = false
  ranOut : .ranOut ∈ past → run.aborted = true
  aborted : run.aborted = true → .ranOut ∈ past ∨ ∃ h ∈ past, succeeded h.results = false
  fits : ∀ step attempts results, .executed step attempts results ∈ past → step.action.branches = true →
    0 < attempts ∧ succeeded results = true

theorem start_tracks : Tracks [] start where
  named := by simp
  length := le_rfl
  record := by simp [start]
  hadFailure := by simp [start]
  ranOut := by simp
  aborted := by simp [start]
  fits := by simp

theorem kept_iff {past : List Happening} (tracks : Tracks past run) (attempts : Nat) (results : List StepResult) :
    run.kept step attempts = past.flatMap Happening.results ↔
      past.Pairwise Happening.Apart ∧ ∀ q ∈ past, q.Apart (.executed step attempts results) := by
  rw [← tracks.record, kept]
  split
  next once =>
    have apart : ∀ q ∈ past, q.Apart (.executed step attempts results) := by
      intro q _
      cases q with
      | executed => exact fun several => absurd several (Nat.not_lt.mpr once)
      | ranOut => trivial
    exact (and_iff_left apart).symm
  next again =>
    constructor
    · intro same
      have whole : run.steps.filter (·.stepName ≠ step.name) = run.steps := by
        apply List.Sublist.eq_of_length_le List.filter_sublist
        rw [same]
        exact tracks.length
      refine ⟨whole.symm.trans same, fun q member => ?_⟩
      cases q with
      | ranOut => trivial
      | executed earlier count left =>
        intro _ name
        rw [List.eq_nil_iff_forall_not_mem]
        intro r inside
        have there : r ∈ run.steps.filter (·.stepName ≠ step.name) := by
          rw [same]
          exact List.mem_flatMap.mpr ⟨_, member, inside⟩
        have other : r.stepName ≠ step.name := by simpa using (List.mem_filter.mp there).2
        exact other ((tracks.named earlier count left member r inside).trans name)
    · rintro ⟨same, apart⟩
      rw [same, List.filter_eq_self]
      intro r member
      obtain ⟨q, there, inside⟩ := List.mem_flatMap.mp member
      cases q with
      | ranOut => cases inside
      | executed earlier count left =>
        have other : earlier.name ≠ step.name := by
          intro name
          have none_ : left = [] := apart _ there (Nat.not_le.mp again) name
          rw [none_] at inside
          cases inside
        simpa [tracks.named earlier count left there r inside] using other

theorem pairwise_concat {past : List Happening} {h : Happening} :
    (past ++ [h]).Pairwise Happening.Apart ↔ past.Pairwise Happening.Apart ∧ ∀ q ∈ past, q.Apart h := by
  simp [List.pairwise_append]

theorem Tracks.outOfTime {past : List Happening} (tracks : Tracks past run) : Tracks (past ++ [.ranOut]) { run with aborted := true } where
  named step attempts results member := tracks.named step attempts results (by simpa using member)
  length := by simpa [Happening.results] using tracks.length
  record := by
    rw [pairwise_concat, and_iff_left (fun q _ => by cases q <;> trivial), ← tracks.record]
    simp [Happening.results]
  hadFailure := by
    rw [tracks.hadFailure]
    simp [or_and_right, exists_or, Happening.results, succeeded]
  ranOut _ := rfl
  aborted _ := .inl (by simp)
  fits step attempts results member := tracks.fits step attempts results (by simpa using member)

theorem Tracks.executed {past : List Happening} {attempts : Nat} {results : List StepResult} {next : Execution} (tracks : Tracks past run)
    (fits : step.action.branches = true → 0 < attempts ∧ succeeded results = true) (left : Left run step attempts results next) :
    Tracks (past ++ [.executed step attempts results]) next where
  named other count shown member := by
    rcases List.mem_append.mp member with earlier | here
    · exact tracks.named other count shown earlier
    · cases List.mem_singleton.mp here
      exact left.named
  length := by
    have fewer : (run.kept step attempts).length ≤ run.steps.length := by
      unfold kept
      split
      · exact le_rfl
      · exact List.length_filter_le _ _
    rw [left.steps, List.flatMap_append, List.flatMap_singleton, List.length_append, List.length_append]
    exact Nat.add_le_add_right (fewer.trans tracks.length) _
  record := by
    rw [pairwise_concat, ← kept_iff tracks, left.steps, List.flatMap_append, List.flatMap_singleton]
    exact List.append_left_inj results
  hadFailure := by
    rw [left.hadFailure, Bool.or_eq_true, tracks.hadFailure]
    simp [or_and_right, exists_or, Happening.results]
  ranOut member := by
    have earlier : Happening.ranOut ∈ past := by simpa using member
    rw [left.aborted, tracks.ranOut earlier, Bool.true_or]
  aborted stopped := by
    rw [left.aborted, Bool.or_eq_true, Bool.and_eq_true] at stopped
    rcases stopped with earlier | ⟨failed, -⟩
    · rcases tracks.aborted earlier with out | ⟨h, member, failed⟩
      · exact .inl (List.mem_append_left _ out)
      · exact .inr ⟨h, List.mem_append_left _ member, failed⟩
    · exact .inr ⟨_, List.mem_append_right _ List.mem_cons_self, (Bool.not_eq_true' _).mp failed⟩
  fits other count shown member := by
    rcases List.mem_append.mp member with earlier | here
    · exact tracks.fits other count shown earlier
    · cases List.mem_singleton.mp here
      exact fits

theorem Tracks.turned {past : List Happening} {event : Option Happening} {next : Execution} (tracks : Tracks past run)
    (turned : Turned run event next) : Tracks (past ++ event.toList) next := by
  cases turned with
  | idle =>
    rw [Option.toList_none, List.append_nil]
    exact tracks
  | ranOut => exact tracks.outOfTime
  | executed fits left => exact tracks.executed fits left

theorem Tracks.along {past : List Happening} (tracks : Tracks past run) (rounds : List Round) :
    Tracks (past ++ historyFrom numbers w run rounds) (rounds.foldl (Execution.turn numbers w) run) := by
  induction rounds generalizing past run with
  | nil =>
    rw [historyFrom, List.append_nil]
    exact tracks
  | cons round rounds ih =>
    rw [historyFrom, ← List.append_assoc, List.foldl_cons]
    exact ih (tracks.turned turn_turned)

theorem Tracks.fulfilled_iff {past : List Happening} (tracks : Tracks past run) {h : Happening} (member : h ∈ past) :
    h.Fulfilled ↔ ¬h.Skipped ∧ succeeded h.results = true := by
  cases h with
  | ranOut => exact iff_of_true trivial ⟨id, rfl⟩
  | executed step attempts results =>
    change (step.action.branches = false → _) ↔ ¬attempts = 0 ∧ _
    cases branches : step.action.branches with
    | false => simp [Nat.pos_iff_ne_zero, Happening.results]
    | true =>
      obtain ⟨made, well⟩ := tracks.fits step attempts results member branches
      exact iff_of_true (fun plain => by cases plain) ⟨made.ne', well⟩

theorem Tracks.verdict_iff {past : List Happening} (tracks : Tracks past run) :
    (run.status = .completed ↔ run.aborted = false ∧ ∀ h ∈ past, h.Fulfilled) ↔
      ((∃ h ∈ past, h.Skipped) → .ranOut ∈ past ∨ ∃ h ∈ past, succeeded h.results = false) := by
  have completed : run.status = .completed ↔ run.aborted = false ∧ ∀ h ∈ past, succeeded h.results = true := by
    have well : run.hadFailure = false ↔ ∀ h ∈ past, succeeded h.results = true := by
      rw [← Bool.not_eq_true, tracks.hadFailure]
      simp
    rw [← well, status]
    cases run.aborted <;> cases run.hadFailure <;> simp
  rw [completed]
  by_cases wrong : .ranOut ∈ past ∨ ∃ h ∈ past, succeeded h.results = false
  · refine iff_of_true ?_ fun _ => wrong
    rcases wrong with out | ⟨h, member, failed⟩
    · simp [tracks.ranOut out]
    · refine iff_of_false (fun both => ?_) fun both => ?_
      · exact Bool.false_ne_true (failed.symm.trans (both.2 h member))
      · exact Bool.false_ne_true (failed.symm.trans ((tracks.fulfilled_iff member).mp (both.2 h member)).2)
  · have running : run.aborted = false := by
      rw [← Bool.not_eq_true]
      exact fun stopped => wrong (tracks.aborted stopped)
    have well : ∀ h ∈ past, succeeded h.results = true := by
      intro h member
      rw [← Bool.not_eq_false]
      exact fun failed => wrong (.inr ⟨h, member, failed⟩)
    have all : (∀ h ∈ past, h.Fulfilled) ↔ ¬∃ h ∈ past, h.Skipped := by
      rw [not_exists]
      refine forall_congr' fun h => ?_
      rw [not_and]
      exact forall_congr' fun member => (tracks.fulfilled_iff member).trans (and_iff_left (well h member))
    rw [and_iff_right running, and_iff_right running, iff_true_left well, all, imp_iff_not wrong]

end Execution

/-- After any number of turns, and so at the end: the record and the verdict are right exactly where
no step that is tried again has the name of an earlier execution that has left results, and no step
is skipped unless something else has gone wrong. -/
theorem run_faithful_iff (numbers : Numbers) (w : Workflow) (rounds : List Round) :
    Faithful (history numbers w rounds) (executeWorkflow numbers w rounds) ↔
      (history numbers w rounds).Pairwise Happening.Apart ∧
      ((∃ h ∈ history numbers w rounds, h.Skipped) →
        .ranOut ∈ history numbers w rounds ∨ ∃ h ∈ history numbers w rounds, succeeded h.results = false) := by
  have tracks : Execution.Tracks (history numbers w rounds) (executeWorkflow numbers w rounds) := Execution.start_tracks.along rounds
  rw [← tracks.verdict_iff, ← tracks.record]
  exact ⟨fun faithful => ⟨faithful.record, faithful.verdict⟩, fun both => ⟨both.1, both.2⟩⟩

def namesakes : Workflow where
  id := "wf-1"
  steps := [⟨"sync", .other "rsync", .continue_, none, none, none, 0⟩, ⟨"sync", .other "rsync", .continue_, none, none, none, 1⟩]
  target := .local_
  schedule := none
  enabled := true
  maxRuntimeSecs := 0

def endsWith (outcomes : List Outcome) : Round where
  elapsed := 0
  nodes := [selfNode]
  attempts made := ⟨fun _ => [selfNode], fun _ => (outcomes[made]?).getD (.err "late")⟩

def fine : Outcome := .ok ⟨"done", fun _ => none⟩

/-- The second step fails once, and with that the result of the first is gone. -/
theorem namesakes_unfaithful : ¬Faithful (history (fun _ _ => none) namesakes [endsWith [fine], endsWith [.err "busy", fine]])
    (executeWorkflow (fun _ _ => none) namesakes [endsWith [fine], endsWith [.err "busy", fine]]) := by
  intro faithful
  have lengths := congrArg List.length faithful.record
  exact absurd lengths (by decide +kernel)

end WolfFlow
