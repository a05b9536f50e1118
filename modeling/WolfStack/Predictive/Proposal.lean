import Mathlib.Data.List.Nodup
import Mathlib.Data.Int.Notation

/-! Findings of the analyzers as the operator's inbox keeps them: one entry for a finding and
its scope, with the operator's decision on it. Every call reads the clock once. -/

namespace Predictive

abbrev Time := Int

def hours (n : Int) : Int := n * 3600

def days (n : Int) : Int := hours (n * 24)

inductive Severity where
  | critical
  | high
  | warn
  | info
deriving DecidableEq, Repr

inductive ProposalSource where
  | rule
  | ai
deriving DecidableEq, Repr

inductive RemediationPlan where
  | manual (instructions : String) (commands : List String)
  | oneClick (handlerId : String) (params : String)
deriving DecidableEq, Repr

structure EvidenceLink where
  label : String
  url : String
deriving DecidableEq, Repr

structure Evidence where
  label : String
  value : String
  detail : Option String
  links : List EvidenceLink
deriving DecidableEq, Repr

structure ProposalScope where
  nodeId : String
  resourceId : Option String
deriving DecidableEq, Repr

abbrev Key := String × ProposalScope

instance : LawfulBEq Key := inferInstance

inductive ApprovalOutcome where
  | applied
  | failed (error : String)
  | conditionCleared
  | resourceGone (reason : String)
deriving DecidableEq, Repr

inductive ProposalStatus where
  | pending
  | snoozed (until_ : Time)
  | approved (appliedAt : Time) (outcome : ApprovalOutcome)
  | dismissed (reason : String) (dismissedAt : Time)
deriving DecidableEq, Repr

structure Proposal where
  id : String
  findingType : String
  source : ProposalSource
  severity : Severity
  title : String
  why : String
  evidence : List Evidence
  remediation : RemediationPlan
  scope : ProposalScope
  status : ProposalStatus
  createdAt : Time
  updatedAt : Time
  lastCheckedAt : Option Time
deriving DecidableEq, Repr

structure Finding where
  findingType : String
  severity : Severity
  title : String
  why : String
  evidence : List Evidence
  remediation : RemediationPlan
  scope : ProposalScope
deriving DecidableEq, Repr

/-- `Proposal::new_rule`, with the id and the time it draws. -/
def newRule (id : String) (now : Time) (finding : Finding) : Proposal where
  id := id
  findingType := finding.findingType
  source := .rule
  severity := finding.severity
  title := finding.title
  why := finding.why
  evidence := finding.evidence
  remediation := finding.remediation
  scope := finding.scope
  status := .pending
  createdAt := now
  updatedAt := now
  lastCheckedAt := some now

def Proposal.dedupKey (p : Proposal) : Key := (p.findingType, p.scope)

def Proposal.isPending (p : Proposal) : Bool := p.status = .pending

/-- In the order of insertion. -/
abbrev ProposalStore := List Proposal

namespace ProposalStore

/-- `iter_mut().find(..)`, and a change of what is found. -/
def modifyFirst (pick : Proposal → Bool) (change : Proposal → Proposal) : ProposalStore → ProposalStore
  | [] => []
  | p :: rest => if pick p then change p :: rest else p :: modifyFirst pick change rest

def appliedGraceHours : Int := 12

/-- The decisions that `upsert` does not overwrite. -/
def standing (now : Time) : ProposalStatus → Bool
  | .snoozed until_ => now < until_
  | .dismissed _ _ => true
  | .approved appliedAt .applied => now < appliedAt + hours appliedGraceHours
  | _ => false

def refreshed (now : Time) (incoming existing : Proposal) : Proposal :=
  { existing with
    severity := incoming.severity
    title := incoming.title
    why := incoming.why
    evidence := incoming.evidence
    remediation := incoming.remediation
    source := incoming.source
    status := .pending
    updatedAt := now }

def upsert (now : Time) (incoming : Proposal) (store : ProposalStore) : ProposalStore × String :=
  match store.find? fun p => p.dedupKey = incoming.dedupKey with
  | some existing =>
    if standing now existing.status then (store, existing.id)
    else (store.modifyFirst (fun p => p.dedupKey = incoming.dedupKey) (refreshed now incoming), existing.id)
  | none => (store ++ [incoming], incoming.id)

def touchChecked (now : Time) (covered : List Key) (store : ProposalStore) : ProposalStore :=
  store.map fun p => if p.isPending ∧ p.dedupKey ∈ covered then { p with lastCheckedAt := some now } else p

/-- The entries that wait for the operator are closed where there is an outcome for them. -/
def resolve (now : Time) (outcome : Proposal → Option ApprovalOutcome) (store : ProposalStore) : ProposalStore × Nat :=
  (store.map fun p => if p.isPending then
      match outcome p with
      | some o => { p with status := .approved now o, updatedAt := now }
      | none => p
    else p,
  store.countP fun p => p.isPending && (outcome p).isSome)

def cleared (covered emitted : List Key) (p : Proposal) : Option ApprovalOutcome :=
  if p.dedupKey ∈ covered ∧ p.dedupKey ∉ emitted then some .conditionCleared else none

def autoResolveCleared (now : Time) (covered emitted : List Key) (store : ProposalStore) : ProposalStore × Nat :=
  store.resolve now (cleared covered emitted)

def orphanFuseDays : Int := 7

def lastAlive (p : Proposal) : Time := max (p.lastCheckedAt.getD p.updatedAt) p.updatedAt

/-- `format` writes a time down. -/
def orphaned (format : Time → String) (now : Time) (nodeId : String) (fuseDays : Int) (p : Proposal) : Option ApprovalOutcome :=
  if nodeId ≠ "" ∧ p.scope.nodeId ≠ nodeId then
    some (.resourceGone ("finding belongs to node " ++ p.scope.nodeId ++
      ", which this node is not — nothing here can re-evaluate it"))
  else if now - days fuseDays ≤ lastAlive p then none
  else
    some (.resourceGone ("nothing has evaluated this finding since " ++ format (lastAlive p) ++ ", past the " ++
      toString fuseDays ++ "-day fuse — treating the resource it refers to as gone"))

def resolveOrphaned (format : Time → String) (now : Time) (nodeId : String) (fuseDays : Int) (store : ProposalStore) :
    ProposalStore × Nat :=
  store.resolve now (orphaned format now nodeId fuseDays)

def absent (vanished : List Key) (p : Proposal) : Option ApprovalOutcome :=
  if p.dedupKey ∈ vanished then
    some (.resourceGone "the resource this finding is about is no longer present on this node")
  else none

def resolveVanished (now : Time) (vanished : List Key) (store : ProposalStore) : ProposalStore × Nat :=
  if vanished = [] then (store, 0) else store.resolve now (absent vanished)

def suppressing (now : Time) : ProposalStatus → Bool
  | .snoozed until_ => now < until_
  | .dismissed _ _ => true
  | .approved appliedAt .applied => now < appliedAt + hours appliedGraceHours
  | _ => false

def isSuppressed (now : Time) (findingType : String) (scope : ProposalScope) (store : ProposalStore) : Bool :=
  store.any fun p => p.findingType = findingType && p.scope = scope && suppressing now p.status

/-- `vanished_scopes`. -/
def vanishedScopes (findingTypes : List String) (enumerated : Bool) (covered : List Key) (store : ProposalStore) (nodeId : String) :
    List Key :=
  if ¬enumerated then []
  else (store.filter fun p => p.isPending && p.scope.nodeId = nodeId && p.findingType ∈ findingTypes && p.dedupKey ∉ covered).map
    Proposal.dedupKey

def get (id : String) (store : ProposalStore) : Option Proposal := store.find? fun p => p.id = id

/-- `p.status = ..; p.updated_at = Utc::now()`. -/
def marked (now : Time) (status : ProposalStatus) (p : Proposal) : Proposal := { p with status := status, updatedAt := now }

def settle (now : Time) (id : String) (status : ProposalStatus) (store : ProposalStore) : Except String ProposalStore :=
  match store.get id with
  | none => .error ("proposal " ++ id ++ " not found")
  | some _ => .ok (store.modifyFirst (fun p => p.id = id) (marked now status))

def snooze (now : Time) (id : String) (until_ : Time) (store : ProposalStore) : Except String ProposalStore :=
  store.settle now id (.snoozed until_)

def dismiss (now : Time) (id reason : String) (store : ProposalStore) : Except String ProposalStore :=
  store.settle now id (.dismissed reason now)

def recordApproval (now : Time) (id : String) (outcome : ApprovalOutcome) (store : ProposalStore) : Except String ProposalStore :=
  store.settle now id (.approved now outcome)

/-- Only a dismissal and a snooze can be undone. -/
def restore (now : Time) (id : String) (store : ProposalStore) : Except String ProposalStore :=
  match store.get id with
  | none => .error ("proposal " ++ id ++ " not found")
  | some p =>
    match p.status with
    | .dismissed _ _ | .snoozed _ => .ok (store.modifyFirst (fun p => p.id = id) (marked now .pending))
    | _ => .error "only a dismissed or snoozed finding can be restored"

def pruneResolvedOlderThan (now : Time) (daysKept : Int) (store : ProposalStore) : ProposalStore × Nat :=
  let kept := store.filter fun p =>
    match p.status with
    | .approved _ _ => now - days daysKept ≤ p.updatedAt
    | _ => true
  (kept, store.length - kept.length)

variable {store : ProposalStore} {p : Proposal} {pick : Proposal → Bool} {change : Proposal → Proposal}

theorem mem_modifyFirst (member : p ∈ store) (other : pick p = false) : p ∈ store.modifyFirst pick change := by
  induction store with
  | nil => exact absurd member List.not_mem_nil
  | cons head rest ih =>
    rw [modifyFirst]
    rcases List.mem_cons.mp member with rfl | later
    · rw [if_neg (by simp [other])]
      exact List.mem_cons_self
    · split
      · exact List.mem_cons_of_mem _ later
      · exact List.mem_cons_of_mem _ (ih later)

theorem of_mem_modifyFirst (member : p ∈ store.modifyFirst pick change) :
    p ∈ store ∨ ∃ old, store.find? pick = some old ∧ p = change old := by
  induction store with
  | nil => exact absurd member List.not_mem_nil
  | cons head rest ih =>
    rw [modifyFirst] at member
    split at member
    · rename_i here
      rcases List.mem_cons.mp member with rfl | later
      · exact .inr ⟨head, by rw [List.find?_cons_of_pos here], rfl⟩
      · exact .inl (List.mem_cons_of_mem _ later)
    · rename_i apart
      rcases List.mem_cons.mp member with rfl | later
      · exact .inl List.mem_cons_self
      · rcases ih later with kept | ⟨old, found, rfl⟩
        · exact .inl (List.mem_cons_of_mem _ kept)
        · exact .inr ⟨old, by rw [List.find?_cons_of_neg apart, found], rfl⟩

theorem keys_modifyFirst (same : ∀ p, (change p).dedupKey = p.dedupKey) :
    (store.modifyFirst pick change).map Proposal.dedupKey = store.map Proposal.dedupKey := by
  induction store with
  | nil => rfl
  | cons head rest ih =>
    rw [modifyFirst]
    split
    · rw [List.map_cons, same, List.map_cons]
    · rw [List.map_cons, ih, List.map_cons]

theorem mem_resolve {now : Time} {outcome : Proposal → Option ApprovalOutcome} (member : p ∈ store) (decided : p.isPending = false) :
    p ∈ (store.resolve now outcome).1 :=
  List.mem_map.mpr ⟨p, member, by rw [if_neg (by simp [decided])]⟩

theorem of_mem_resolve {now : Time} {outcome : Proposal → Option ApprovalOutcome} (member : p ∈ (store.resolve now outcome).1) :
    p ∈ store ∧ (p.isPending = true → outcome p = none) ∨
      ∃ old ∈ store, old.isPending = true ∧ ∃ o, outcome old = some o ∧ p = marked now (.approved now o) old := by
  obtain ⟨old, here, rfl⟩ := List.mem_map.mp member
  by_cases waiting : old.isPending = true
  · rw [if_pos waiting]
    cases found : outcome old with
    | none => exact .inl ⟨here, fun _ => found⟩
    | some o => exact .inr ⟨old, here, waiting, o, found, rfl⟩
  · rw [if_neg waiting]
    exact .inl ⟨here, fun yes => absurd yes waiting⟩

theorem keys_resolve {now : Time} {outcome : Proposal → Option ApprovalOutcome} :
    (store.resolve now outcome).1.map Proposal.dedupKey = store.map Proposal.dedupKey := by
  unfold resolve
  rw [List.map_map]
  apply List.map_congr_left
  intro p _
  dsimp only [Function.comp_apply]
  split
  · split <;> rfl
  · rfl

theorem resolveVanished_eq (now : Time) (vanished : List Key) (store : ProposalStore) :
    (store.resolveVanished now vanished).1 = (store.resolve now (absent vanished)).1 := by
  unfold resolveVanished
  split
  · rename_i none
    unfold resolve
    rw [none]
    simp [absent]
  · rfl

end ProposalStore
end Predictive
