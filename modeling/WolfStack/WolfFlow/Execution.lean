import WolfStack.WolfFlow.Templates
import WolfStack.WolfFlow.Workflow

/-! A run of a workflow: the loop over its steps, what it hands to the nodes and containers, and
the outputs that later steps can refer to. -/

namespace WolfFlow
open Auth Router
open Cluster (Node)

def find (part : List Char) : List Char → Option Nat
  | [] => if part.isEmpty then some 0 else none
  | c :: rest => if part.isPrefixOf (c :: rest) then some 0 else (find part rest).map (· + 1)

/-- What is left after the parts of a pattern, each found after the one before. -/
def globRest : Bool → List (List Char) → List Char → Option (List Char)
  | _, [], rest => some rest
  | first, part :: parts, rest =>
    if part.isEmpty then globRest false parts rest
    else match find part rest with
      | some found => if first && found ≠ 0 then none else globRest false parts (rest.drop (found + part.length))
      | none => none

def globMatches (pattern text : List Char) : Bool :=
  let parts := splitOn '*' pattern
  match globRest true parts text with
  | some rest => (parts.getLast?.getD []).isEmpty || rest.isEmpty
  | none => false

/-- How two texts compare as floating-point numbers, where what is none counts as zero. -/
abbrev Numbers := List Char → List Char → Option Ordering

def evaluateCondition (numbers : Numbers) (expression compareTo operator : String) (context : WorkflowContext) : Bool :=
  let resolved := trimChars (resolveTemplates expression.toList context)
  let compare := trimChars compareTo.toList
  match operator with
  | "neq" => resolved ≠ compare
  | "gt" => numbers resolved compare = some .gt
  | "lt" => numbers resolved compare = some .lt
  | "gte" => numbers resolved compare = some .gt || numbers resolved compare = some .eq
  | "lte" => numbers resolved compare = some .lt || numbers resolved compare = some .eq
  | "contains" => (find compare resolved).isSome
  | "matches" => if '*' ∈ compare then globMatches compare resolved else resolved = compare
  | "truthy" => !resolved.isEmpty && resolved ≠ "false".toList && resolved ≠ "0".toList && resolved ≠ "null".toList
  | _ => resolved = compare

inductive Executor where
  | executeActionLocal
  | executeActionRemote
  | executeActionInContainer
  | executeContainerRemote
  | executeInAllLocalContainers
  | executeAllContainersRemote
deriving DecidableEq, Repr

structure Call where
  executor : Executor
  container : Option ContainerTarget
  action : ActionType

/-- One of the tasks of a step, which calls nothing when the host of its container is not found. -/
structure Task where
  nodeId : String
  nodeHostname : String
  call : Option Call

inductive RunStatus where
  | running
  | completed
  | failed
  | partialFailure
deriving DecidableEq, Repr

structure StepResult where
  stepName : String
  nodeId : String
  nodeHostname : String
  status : RunStatus
  output : String

inductive Outcome where
  | ok (output : StepOutput)
  | err (text : String)
  | died (text : String)

variable (w : Workflow) (step : WorkflowStep) (target : Target) (targets : List Node)

def nodeTasks : List Task :=
  targets.map fun n => ⟨n.id, n.hostname, some ⟨if n.isSelf then .executeActionLocal else .executeActionRemote, none, step.action⟩⟩

def containerTask (nodes : List Node) (ct : ContainerTarget) : Task :=
  match (targets.find? (·.id = ct.nodeId)).or (nodes.find? fun n => n.id = ct.nodeId && n.online) with
  | some n => ⟨n.id, ct.runtime ++ ":" ++ ct.name ++ " on " ++ n.hostname,
      some ⟨if n.isSelf then .executeActionInContainer else .executeContainerRemote, some ct, step.action⟩⟩
  | none => ⟨ct.nodeId, ct.runtime ++ ":" ++ ct.name, none⟩

def allContainersTasks : List Task :=
  targets.map fun n => ⟨n.id, n.hostname ++ " (containers)",
    some ⟨if n.isSelf then .executeInAllLocalContainers else .executeAllContainersRemote, none, step.action⟩⟩

/-- The nodes may be others each time a host is looked up. -/
def stepTasks (nodes : Nat → List Node) : List Task :=
  match target with
  | .containers cts => cts.zipIdx.map fun (ct, i) => containerTask step targets (nodes i) ct
  | .everything => nodeTasks step targets ++ allContainersTasks step targets
  | .local_ | .allNodes | .cluster _ | .nodes _ => nodeTasks step targets

def cut (text : String) : String := String.ofList (text.toList.take 5000)

def Task.result (task : Task) (outcome : Outcome) : StepResult × Option StepOutput :=
  match task.call, outcome with
  | none, _ => (⟨step.name, task.nodeId, task.nodeHostname, .failed, "Host node '" ++ task.nodeId ++ "' not found or offline"⟩, none)
  | some _, .ok output => (⟨step.name, task.nodeId, task.nodeHostname, .completed, cut output.text⟩, some output)
  | some _, .err text => (⟨step.name, task.nodeId, task.nodeHostname, .failed, cut text⟩, none)
  | some _, .died text => (⟨step.name, "unknown", "unknown", .failed, "Task error: " ++ text⟩, none)

/-- An action that was handed over, the step it was for, and the outputs then stored. -/
structure Dispatch where
  nodeId : String
  call : Call
  step : WorkflowStep
  context : WorkflowContext

structure Execution where
  stepIdx : Nat
  context : WorkflowContext
  hadFailure : Bool
  aborted : Bool
  steps : List StepResult
  dispatched : List Dispatch

structure Attempt where
  nodes : Nat → List Node
  outcome : Nat → Outcome

/-- What one turn of the loop meets, with the nanoseconds that the run has taken. -/
structure Round where
  elapsed : Nat
  nodes : List Node
  attempts : Nat → Attempt

def WorkflowContext.insert (context : WorkflowContext) (name : String) (output : StepOutput) : WorkflowContext where
  stepOutputs other := if other = name then some output else context.stepOutputs other

namespace Execution
variable (run : Execution)

def start : Execution := ⟨0, ⟨fun _ => none⟩, false, false, [], []⟩

def status : RunStatus :=
  if run.aborted then .failed else if run.hadFailure then .partialFailure else .completed

def branch (numbers : Numbers) (expression compareTo operator : String) : Execution :=
  let result := evaluateCondition numbers expression compareTo operator run.context
  let resolved := String.ofList (resolveTemplates expression.toList run.context)
  let output : StepOutput := {
    text := "Condition: " ++ expression ++ " → " ++ toString result
    data := fun key => if key = "result" then some (.other (toString result)) else if key = "expression_resolved" then some (.string resolved) else none }
  let context := run.context.insert step.name output
  let shown := String.ofList (resolveTemplates expression.toList context)
  { run with
    context := context
    steps := run.steps ++ [⟨step.name, "local", "local", .completed,
      "Condition '" ++ shown ++ "' " ++ operator ++ " '" ++ compareTo ++ "' → " ++ toString result⟩]
    stepIdx := (if result then step.onTrueStep else step.onFalseStep).getD (run.stepIdx + 1) }

def fail : Execution := { run with hadFailure := true, aborted := run.aborted || step.onFailure.aborts }

def untargeted : Execution :=
  { run.fail step with
    steps := run.steps ++ [⟨step.name, "none", "none", .failed, "No target nodes found"⟩]
    stepIdx := run.stepIdx + 1 }

/-- What the tasks of an attempt leave, which takes the place of what the one before has left. -/
def collect (attempt : Nat) (tasks : List Task) (results : List StepResult) : Execution :=
  { run with
    dispatched := run.dispatched ++ tasks.filterMap fun task => task.call.map fun call => ⟨task.nodeId, call, step, run.context⟩
    steps := (if attempt = 0 then run.steps else run.steps.filter (·.stepName ≠ step.name)) ++ results }

def succeed (output : Option StepOutput) : Execution :=
  match output with
  | some output => { run with context := run.context.insert step.name output }
  | none => run

def attempts (round : Round) : Nat → Nat → Execution → Execution
  | 0, _, run => run
  | left + 1, attempt, run =>
    let met := round.attempts attempt
    let tasks := stepTasks step target targets met.nodes
    let results := tasks.zipIdx.map fun (task, i) => task.result step (met.outcome i)
    let next := run.collect step attempt tasks (results.map Prod.fst)
    if results.all fun r => r.1.status ≠ .failed then next.succeed step (results.filterMap Prod.snd).getLast?
    else if left = 0 then next.fail step
    else attempts round left (attempt + 1) next

def dispatch (round : Round) : Execution :=
  let target := step.targetOverride.getD w.target
  match resolveTargets round.nodes target with
  | [] => run.untargeted step
  | targets =>
    let next := attempts step target targets round (step.retryCount + 1).toNat 0 run
    { next with stepIdx := next.stepIdx + 1 }

def turn (numbers : Numbers) (w : Workflow) (run : Execution) (round : Round) : Execution :=
  if run.aborted then run
  else match w.steps[run.stepIdx]? with
    | none => run
    | some step =>
      if 0 < w.maxRuntimeSecs ∧ w.maxRuntimeSecs * 1000000000 < round.elapsed then { run with aborted := true }
      else match step.action with
        | .condition expression compareTo operator => run.branch step numbers expression compareTo operator
        | .aiInvoke .. | .agentChat .. | .sqlQuery .. | .sendEmail .. | .other _ => run.dispatch w step round

end Execution

/-- A run so far, from what its turns have met. -/
def executeWorkflow (numbers : Numbers) (w : Workflow) (rounds : List Round) : Execution :=
  rounds.foldl (Execution.turn numbers w) Execution.start

def WorkflowContext.value (context : WorkflowContext) (inner : List Char) : Option Value :=
  (splitOnce '.' (trimChars inner)).bind fun (step, key) => context.stored step key

/-- A text with stored values in the place of the references to them, and anything in the place of
other references. -/
inductive Filled (context : WorkflowContext) : List Char → List Char → Prop where
  | plain {chars : List Char} (none_ : nextReference chars = none) : Filled context chars chars
  | stored {chars before inner after filled : List Char} {v : Value} (found : nextReference chars = some (before, inner, after))
      (value : context.value inner = some v) (rest : Filled context after filled) : Filled context chars (before ++ v.shown.toList ++ filled)
  | unknown {chars before inner after filled : List Char} (found : nextReference chars = some (before, inner, after))
      (absent : context.value inner = none) (left : List Char) (rest : Filled context after filled) : Filled context chars (before ++ left ++ filled)

inductive Refers (context : WorkflowContext) : List Char → Prop where
  | here {chars before inner after : List Char} {v : Value} (found : nextReference chars = some (before, inner, after))
      (value : context.value inner = some v) : Refers context chars
  | later {chars before inner after : List Char} (found : nextReference chars = some (before, inner, after))
      (rest : Refers context after) : Refers context chars

def Dispatch.Resolved (d : Dispatch) : Prop :=
  List.Forall₂ (fun written handed => Filled d.context written.toList handed.toList) d.step.action.templated d.call.action.templated

variable {context : WorkflowContext} {chars : List Char}

theorem filled_self (unrelated : ¬Refers context chars) : Filled context chars chars := by
  induction length : chars.length using Nat.strong_induction_on generalizing chars with
  | _ n ih =>
    cases found : nextReference chars with
    | none => exact .plain found
    | some parts =>
      obtain ⟨before, inner, after⟩ := parts
      have shape := (nextReference_shape found).1
      have absent : context.value inner = none := by
        cases value : context.value inner with
        | none => rfl
        | some v => exact absurd (.here found value) unrelated
      have shorter : after.length < n := by
        rw [← length, shape]
        simp
        omega
      have rest : Filled context after after := ih after.length shorter (fun refers => unrelated (.later found refers)) rfl
      have whole : chars = before ++ ('{' :: '{' :: (inner ++ ['}', '}'])) ++ after := by
        rw [shape]
        simp
      have filled := Filled.unknown found absent ('{' :: '{' :: (inner ++ ['}', '}'])) rest
      rwa [← whole] at filled

theorem Filled.of_plain {handed : List Char} (filled : Filled context chars handed) (none_ : nextReference chars = none) : handed = chars := by
  cases filled with
  | plain => rfl
  | stored found => rw [none_] at found; cases found
  | unknown found => rw [none_] at found; cases found

theorem Filled.of_stored {handed before inner after : List Char} {v : Value} (filled : Filled context chars handed)
    (found : nextReference chars = some (before, inner, after)) (value : context.value inner = some v) :
    ∃ rest, handed = before ++ v.shown.toList ++ rest ∧ Filled context after rest := by
  cases filled with
  | plain none_ => rw [none_] at found; cases found
  | stored found_ value_ rest =>
    rw [found] at found_
    cases found_
    rw [value] at value_
    cases value_
    exact ⟨_, rfl, rest⟩
  | unknown found_ absent left rest =>
    rw [found] at found_
    cases found_
    rw [value] at absent
    cases absent

variable {w : Workflow} {step : WorkflowStep} {target : Target} {targets : List Node} {task : Task} {call : Call}

theorem nodeTasks_call (member : task ∈ nodeTasks step targets) (calls : task.call = some call) : call.action = step.action := by
  obtain ⟨n, -, rfl⟩ := List.mem_map.mp member
  cases calls
  rfl

theorem allContainersTasks_call (member : task ∈ allContainersTasks step targets) (calls : task.call = some call) :
    call.action = step.action := by
  obtain ⟨n, -, rfl⟩ := List.mem_map.mp member
  cases calls
  rfl

theorem containerTask_call {nodes : List Node} {ct : ContainerTarget} (calls : (containerTask step targets nodes ct).call = some call) :
    call.action = step.action := by
  unfold containerTask at calls
  split at calls
  · cases calls
    rfl
  · cases calls

theorem stepTasks_call {nodes : Nat → List Node} (member : task ∈ stepTasks step target targets nodes) (calls : task.call = some call) :
    call.action = step.action := by
  unfold stepTasks at member
  split at member
  · obtain ⟨⟨ct, i⟩, -, rfl⟩ := List.mem_map.mp member
    exact containerTask_call calls
  · rcases List.mem_append.mp member with one | all
    · exact nodeTasks_call one calls
    · exact allContainersTasks_call all calls
  all_goals exact nodeTasks_call member calls

namespace Execution
variable {run : Execution} {numbers : Numbers} {round : Round}

def Verbatim (run : Execution) : Prop := ∀ d ∈ run.dispatched, d.call.action = d.step.action

theorem Verbatim.collect (verbatim : run.Verbatim) {tasks : List Task}
    (calls : ∀ task ∈ tasks, ∀ call, task.call = some call → call.action = step.action) (attempt : Nat) (results : List StepResult) :
    (run.collect step attempt tasks results).Verbatim := by
  intro d member
  rcases List.mem_append.mp member with earlier | here
  · exact verbatim d earlier
  · obtain ⟨task, task_member, handed⟩ := List.mem_filterMap.mp here
    obtain ⟨call, called, rfl⟩ := Option.map_eq_some_iff.mp handed
    exact calls task task_member call called

theorem Verbatim.succeed (verbatim : run.Verbatim) (output : Option StepOutput) : (run.succeed step output).Verbatim := by
  cases output <;> exact verbatim

theorem Verbatim.fail (verbatim : run.Verbatim) : (run.fail step).Verbatim := verbatim

theorem Verbatim.attempts (left : Nat) (attempt : Nat) (verbatim : run.Verbatim) :
    (attempts step target targets round left attempt run).Verbatim := by
  induction left generalizing attempt run with
  | zero => exact verbatim
  | succ left ih =>
    have collected : ∀ results, (run.collect step attempt (stepTasks step target targets (round.attempts attempt).nodes) results).Verbatim :=
      verbatim.collect (fun _ member _ called => stepTasks_call member called) attempt
    rw [Execution.attempts]
    dsimp only
    split
    · exact Verbatim.succeed (collected _) _
    · split
      · exact Verbatim.fail (collected _)
      · apply ih
        exact collected _

theorem Verbatim.dispatch (verbatim : run.Verbatim) : (run.dispatch w step round).Verbatim := by
  unfold Execution.dispatch
  dsimp only
  split
  · exact verbatim
  · exact Verbatim.attempts _ 0 verbatim

theorem Verbatim.turn (verbatim : run.Verbatim) : (run.turn numbers w round).Verbatim := by
  unfold Execution.turn
  split
  · exact verbatim
  · split
    · exact verbatim
    · split
      · exact verbatim
      · split
        · exact verbatim
        all_goals exact verbatim.dispatch

end Execution

theorem executeWorkflow_verbatim (numbers : Numbers) (w : Workflow) (rounds : List Round) : (executeWorkflow numbers w rounds).Verbatim := by
  have kept : ∀ run : Execution, run.Verbatim → (rounds.foldl (Execution.turn numbers w) run).Verbatim := by
    induction rounds with
    | nil => exact fun run verbatim => verbatim
    | cons round rounds ih => exact fun run verbatim => ih _ verbatim.turn
  exact kept Execution.start fun d member => by cases member

/-- In every run what is handed over has its references filled in exactly where no templated field
refers to a stored output, save for values that give back the text. -/
theorem resolved_iff (numbers : Numbers) (w : Workflow) (rounds : List Round) :
    (∀ d ∈ (executeWorkflow numbers w rounds).dispatched, d.Resolved) ↔
      ∀ d ∈ (executeWorkflow numbers w rounds).dispatched, ∀ text ∈ d.step.action.templated,
        Refers d.context text.toList → Filled d.context text.toList text.toList := by
  refine forall₂_congr fun d member => ?_
  rw [Dispatch.Resolved, executeWorkflow_verbatim numbers w rounds d member, List.forall₂_same]
  refine forall₂_congr fun text _ => ⟨fun filled _ => filled, fun when_ => ?_⟩
  by_cases refers : Refers d.context text.toList
  · exact when_ refers
  · exact filled_self refers

def reference : String := "\x7b\x7bqry.rows_csv\x7d\x7d"

def reported : Workflow where
  id := "wf-1"
  steps := [⟨"qry", .sqlQuery "db" "SELECT 1" .read 30 false, .abort, none, none, none, 0⟩,
    ⟨"mail", .sendEmail ["ops"] "Result" reference false, .abort, none, none, none, 0⟩]
  target := .local_
  schedule := none
  enabled := true
  maxRuntimeSecs := 0

def selfNode : Node := { Cluster.sampleNode "n1" "10.0.0.1" with isSelf := true }

def answersWith (value : String) : Round where
  elapsed := 0
  nodes := [selfNode]
  attempts _ := ⟨fun _ => [selfNode], fun _ => .ok ⟨"1 row", fun key => if key = "rows_csv" then some (.string value) else none⟩⟩

/-- The mail is sent with the braces in it. -/
theorem reported_unresolved : ¬∀ d ∈ (executeWorkflow (fun _ _ => none) reported [answersWith "1", answersWith "sent"]).dispatched, d.Resolved := by
  intro resolved
  let queried := (executeWorkflow (fun _ _ => none) reported [answersWith "1"]).context
  have value : queried.value "qry.rows_csv".toList = some (.string "1") := by decide +kernel
  have found : nextReference reference.toList = some ([], "qry.rows_csv".toList, []) := by decide
  have mailed : List.Forall₂ (fun written handed => Filled queried written.toList handed.toList) ["ops", "Result", reference] ["ops", "Result", reference] :=
    resolved _ (List.mem_cons_of_mem _ List.mem_cons_self)
  rw [List.forall₂_same] at mailed
  obtain ⟨rest, same, left⟩ := (mailed reference (by simp)).of_stored found value
  rw [left.of_plain rfl] at same
  exact absurd same (by decide)

end WolfFlow
