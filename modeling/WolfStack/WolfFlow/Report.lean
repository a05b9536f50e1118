import WolfStack.Text.Slices
import WolfStack.WolfFlow.Record

/-! How a run is closed. The result is mailed before the final state is stored, and the mail shows
the first 500 bytes of an output. -/

namespace WolfFlow
open Text

/-- What is not in the steps of the run: the name of the workflow, who is to have the result, how
long it took, and what comes of sending a mail. -/
structure Mailing where
  workflowName : String
  emailResults : Option String
  trigger : String
  durationMs : Nat
  stepMs : Nat → Nat
  smtpHost : String
  sendHtmlEmail : String → String → String → Except String Unit

structure StoredRun where
  status : RunStatus
  steps : List StepResult
  emailStatus : Option String

def RunStatus.debug : RunStatus → String
  | running => "Running"
  | completed => "Completed"
  | failed => "Failed"
  | partialFailure => "PartialFailure"

def shownOutput (output : String) : Option String :=
  if 500 < byteLen output.toList then (takeBytes 500 output.toList).map fun front => String.ofList front ++ "..." else some output

def resultRow (ms : Nat) (s : StepResult) : Option String :=
  (shownOutput s.output).map fun output =>
    "<tr><td>" ++ s.stepName ++ "</td><td>" ++ s.nodeHostname ++ "</td><td>" ++ s.status.debug ++ "</td><td>" ++ toString ms ++
      "ms</td><td><pre>" ++ output ++ "</pre></td></tr>"

namespace Mailing
variable (m : Mailing) (run : Execution)

def htmlBody : Option String :=
  (run.steps.zipIdx.mapM fun (s, i) => resultRow (m.stepMs i) s).map fun rows =>
    "<html><body style='font-family:sans-serif;'><h2>[WolfFlow] " ++ m.workflowName ++ " &mdash; " ++ run.status.debug ++ "</h2><p>Trigger: " ++
      m.trigger ++ " | Duration: " ++ toString m.durationMs ++ "ms | Steps: " ++ toString run.steps.length ++
      "</p><table border='1' cellpadding='6' cellspacing='0' style='border-collapse:collapse;font-size:13px;'>" ++
      "<tr><th>Step</th><th>Node</th><th>Status</th><th>Duration</th><th>Output</th></tr>" ++ String.join rows ++ "</table></body></html>"

def emailStatus : Option (Option String) :=
  match m.emailResults.filter (· ≠ "") with
  | none => some none
  | some email =>
    if m.smtpHost = "" then some (some "Failed: SMTP not configured in Settings → AI Agent")
    else (m.htmlBody run).map fun body =>
      match m.sendHtmlEmail email ("[WolfFlow] " ++ m.workflowName ++ " — " ++ run.status.debug) body with
      | .ok () => some ("Sent to " ++ email)
      | .error e => some ("Failed: " ++ e)

/-- The run as it is stored last. Where the mail cannot be built, that is what was stored of it
while it was running. -/
def stored (shown : List StepResult) : StoredRun :=
  match m.emailStatus run with
  | some emailStatus => ⟨run.status, run.steps, emailStatus⟩
  | none => ⟨.running, shown, none⟩

def Mails : Prop := (∃ email, m.emailResults = some email ∧ email ≠ "") ∧ m.smtpHost ≠ ""

end Mailing

variable {m : Mailing} {run : Execution}

theorem status_over : run.status ≠ .running := by
  unfold Execution.status
  cases run.aborted <;> cases run.hadFailure <;> simp

theorem shownOutput_isSome_iff (output : String) :
    (shownOutput output).isSome = true ↔ (500 < byteLen output.toList → Boundary 500 output.toList) := by
  unfold shownOutput
  split
  next long => rw [Option.isSome_map, takeBytes_isSome_iff, imp_iff_right long]
  next short => exact iff_of_true rfl fun long => absurd long short

theorem mapM_isSome_iff {α β : Type} (f : α → Option β) (list : List α) : (list.mapM f).isSome = true ↔ ∀ a ∈ list, (f a).isSome = true := by
  induction list with
  | nil => simp
  | cons a rest ih =>
    rw [List.mapM_cons, List.forall_mem_cons, ← ih]
    cases f a <;> cases rest.mapM f <;> simp

theorem htmlBody_isSome_iff : (m.htmlBody run).isSome = true ↔
    ∀ r ∈ run.steps, 500 < byteLen r.output.toList → Boundary 500 r.output.toList := by
  rw [Mailing.htmlBody, Option.isSome_map, mapM_isSome_iff]
  simp only [resultRow, Option.isSome_map, shownOutput_isSome_iff]
  constructor
  · intro all r member
    obtain ⟨i, found⟩ := List.mem_iff_getElem?.mp member
    exact all (r, i) (List.mem_zipIdx_iff_getElem?.mpr found)
  · intro all pair member
    exact all pair.1 (List.fst_mem_of_mem_zipIdx member)

theorem emailStatus_isSome_iff : (m.emailStatus run).isSome = true ↔ (m.Mails → (m.htmlBody run).isSome = true) := by
  unfold Mailing.emailStatus Mailing.Mails
  cases wanted : m.emailResults.filter (· ≠ "") with
  | none =>
    refine iff_of_true rfl fun ⟨⟨email, set, nonempty⟩, _⟩ => absurd wanted ?_
    rw [set, Option.filter_some, if_pos (decide_eq_true nonempty)]
    exact Option.some_ne_none email
  | some email =>
    obtain ⟨set, nonempty⟩ := Option.filter_eq_some_iff.mp wanted
    by_cases host : m.smtpHost = ""
    · simp [host]
    · have mails : (∃ email, m.emailResults = some email ∧ email ≠ "") ∧ m.smtpHost ≠ "" :=
        ⟨⟨email, set, of_decide_eq_true nonempty⟩, host⟩
      rw [imp_iff_right mails]
      simp only [if_neg host, Option.isSome_map]

theorem stored_status_iff (shown : List StepResult) : (m.stored run shown).status ≠ .running ↔ (m.emailStatus run).isSome = true := by
  rw [Mailing.stored]
  cases m.emailStatus run with
  | none => exact iff_of_false (fun ended => ended rfl) Bool.false_ne_true
  | some emailStatus => exact iff_of_true status_over rfl

/-- A run that has ended is stored as ended exactly where no mail is built, or none of the outputs
that are longer than 500 bytes has a character there that the cut would go through. -/
theorem stored_over_iff (numbers : Numbers) (w : Workflow) (rounds : List Round) (m : Mailing) (shown : List StepResult) :
    (m.stored (executeWorkflow numbers w rounds) shown).status ≠ .running ↔
      (m.Mails → ∀ r ∈ (executeWorkflow numbers w rounds).steps, 500 < byteLen r.output.toList → Boundary 500 r.output.toList) := by
  rw [stored_status_iff, emailStatus_isSome_iff, htmlBody_isSome_iff]

/-- One letter of a byte and 250 of two, so that the cut is inside of one. -/
def accents : List Char := 'a' :: List.replicate 250 'é'

def counting : Workflow where
  id := "wf-2"
  steps := [⟨"count", .other "cat", .continue_, none, none, none, 0⟩]
  target := .local_
  schedule := none
  enabled := true
  maxRuntimeSecs := 0

def reporting : Mailing where
  workflowName := "Report"
  emailResults := some "ops@example.org"
  trigger := "manual"
  durationMs := 5
  stepMs _ := 5
  smtpHost := "mail.example.org"
  sendHtmlEmail _ _ _ := .ok ()

def counted : Round := endsWith [.ok ⟨String.ofList accents, fun _ => none⟩]

theorem counted_output : ∃ r ∈ (executeWorkflow (fun _ _ => none) counting [counted]).steps, r.output = cut (String.ofList accents) :=
  ⟨_, List.mem_singleton.mpr rfl, rfl⟩

/-- The step has succeeded, and the run stays as it was while it was running. -/
theorem reporting_stuck : (reporting.stored (executeWorkflow (fun _ _ => none) counting [counted])
    (executeWorkflow (fun _ _ => none) counting [counted]).steps).status = .running := by
  have kept : (cut (String.ofList accents)).toList = accents := by
    rw [cut, String.toList_ofList, String.toList_ofList]
    exact List.take_of_length_le (by decide +kernel)
  have torn : ¬Boundary 500 accents := by
    rw [← takeBytes_isSome_iff]
    decide +kernel
  by_contra ended
  have body := emailStatus_isSome_iff.mp ((stored_status_iff _).mp ended) ⟨⟨_, rfl, by decide⟩, by decide⟩
  obtain ⟨r, member, output⟩ := counted_output
  have whole := htmlBody_isSome_iff.mp body r member
  rw [output, kept] at whole
  exact torn (whole (by decide +kernel))

end WolfFlow
