import WolfStack.Predictive.DiskFill
import WolfStack.Predictive.Evidence
import Mathlib.Algebra.Order.Ring.Rat

/-! Ticks whose samplers fail, after `predictive/orchestrator.rs`: what they leave of the history of disk usage, and
what they close. Ticks come one after another here, the operator's calls in between. -/

open scoped List

namespace Predictive
open ProposalStore

variable {F : Type} (ops : Floats F) (wording : Wording F) (format : Time → String) (nodeId : String)

def fillTypes : List String := ["disk_fill_eta", "docker_storage_fill_eta", "lxc_storage_fill_eta"]

/-- What the samplers of a tick find; a list that could not be made is not there. The other analyzers
look at findings of types of their own; `usable` is whether their samplers deliver anything. -/
structure Sampled (F : Type) where
  df : Option (List (DfRow F))
  docker : Option (List ContainerInfo)
  lxc : Option (List ContainerInfo)
  restarts : Option (List ContainerInfo)
  others : Samples
  apart : ∀ key ∈ others.covered, key.1 ∉ fillTypes
  apartFrom : ∀ store, ∀ key ∈ others.coveredFrom store, key.1 ∉ fillTypes
  recordedAt : Int
  prunedAt : Time
  sweptAt : Time
  analysedAt : Time
  closedAt : Time
  ids : Nat → String

namespace Sampled
variable (input : Sampled F)

def hostFacts : List (DiskFact F) := parseDfOutput (input.df.getD [])

def containerFacts : List (ContainerDiskFact F) :=
  (input.docker.getD []).filterMap (containerToFact ops .docker) ++ (input.lxc.getD []).filterMap (containerToFact ops .lxc)

def restartFacts : List RestartFact := (input.restarts.getD []).filterMap restartFact

/-- `!no_data`. -/
def usable : Bool :=
  !input.hostFacts.isEmpty || !(input.containerFacts ops).isEmpty || !input.restartFacts.isEmpty || input.others.usable

def liveResources : List String :=
  input.hostFacts.map (fun f => f.mount) ++ (input.containerFacts ops).map (fun f => resourceId f.runtime f.name) ++
    input.restartFacts.map fun f => resourceId .docker f.name

def recordHost (h : MetricsHistory F) (f : DiskFact F) : MetricsHistory F := h.recordAt f.mount diskMetric f.usedPct input.recordedAt

def recordContainer (h : MetricsHistory F) (f : ContainerDiskFact F) : MetricsHistory F :=
  (maybeResetHistory ops h (resourceId f.runtime f.name) f.id input.recordedAt).recordAt (resourceId f.runtime f.name) diskMetric f.usedPct
    input.recordedAt

def recordRestart (h : MetricsHistory F) (f : RestartFact) : MetricsHistory F :=
  (maybeResetHistory ops h (resourceId .docker f.name) f.id input.recordedAt).recordAt (resourceId .docker f.name) restartMetric
    (ops.ofInt f.restartCount) input.recordedAt

def recorded (h : MetricsHistory F) : MetricsHistory F :=
  let h := input.hostFacts.foldl (recordHost input) h
  let h := (input.containerFacts ops).foldl (recordContainer ops input) h
  input.restartFacts.foldl (recordRestart ops input) h

def history (h : MetricsHistory F) : MetricsHistory F :=
  if input.usable ops = true then (input.recorded ops h).retainResources fun r => r ∈ input.liveResources ops else h

def fills : List (FillFact F) := input.hostFacts.map (DiskFact.fill wording) ++ (input.containerFacts ops).map (ContainerDiskFact.fill wording)

/-- `build_covered_scopes`. -/
def coveredScopes : List Key :=
  input.hostFacts.map (fun f => ("disk_fill_eta", ⟨nodeId, some f.mount⟩)) ++
    (input.containerFacts ops).map (fun f => (f.runtime.findingType, ⟨nodeId, some (resourceId f.runtime f.name)⟩)) ++
    input.restartFacts.map fun f => ("docker_restart_loop", ⟨nodeId, some (resourceId .docker f.name)⟩)

/-- What the analyzers bring, with the history that they go by. -/
def samples (h : MetricsHistory F) : Samples where
  usable := input.usable ops
  found := ((analyze ops nodeId h (input.fills ops wording)).zipIdx.map fun (f, i) => (input.ids i, f)) ++ input.others.found
  covered := input.coveredScopes ops nodeId ++ input.others.covered
  coveredFrom := input.others.coveredFrom
  listed := input.others.listed

end Sampled

structure Station (F : Type) where
  history : MetricsHistory F
  acks : AckStore
  proposals : ProposalStore
  single : Single proposals

namespace Station

def round (s : Station F) (input : Sampled F) : Round where
  nodeId := nodeId
  samples := input.samples ops wording nodeId (input.history ops s.history)
  acks := s.acks.pruneExpired input.prunedAt
  proposals := sweeping format input.sweptAt nodeId s.proposals
  analysedAt := input.analysedAt

def tick (s : Station F) (input : Sampled F) : Station F :=
  if input.usable ops = true then
    { history := input.history ops s.history
      acks := s.acks.pruneExpired input.prunedAt
      proposals := closing input.closedAt (s.round ops wording format nodeId input) (sweeping format input.sweptAt nodeId s.proposals)
      single := single_closing (single_sweeping s.single nodeId) _ }
  else s

end Station

inductive Happening (F : Type) where
  | tick (input : Sampled F)
  | operate (now : Time) (decision : Decision)
  | acknowledge (change : AckChange)

def Happening.apply (s : Station F) : Happening F → Station F
  | .tick input => s.tick ops wording format nodeId input
  | .operate now decision => { s with proposals := decision.apply now s.proposals, single := single_decision s.single decision }
  | .acknowledge change => { s with acks := change.apply s.acks }

def Station.run (s : Station F) (happenings : List (Happening F)) : Station F := happenings.foldl (Happening.apply ops wording format nodeId) s

def startsWith (start r : String) : Bool := start.toList.isPrefixOf r.toList

/-- A successful enumeration does not have the resource. -/
def Sampled.gone (input : Sampled F) (r : String) : Bool :=
  (startsWith "/" r && input.df.any fun rows => rows.all fun row => row.target ≠ r) ||
    (startsWith "docker:" r && (input.docker.any (fun all => all.all fun c => resourceId .docker c.name ≠ r) ||
      input.restarts.any fun all => all.all fun c => resourceId .docker c.name ≠ r)) ||
    (startsWith "lxc:" r && input.lxc.any fun all => all.all fun c => resourceId .lxc c.name ≠ r)

/-- The container of the resource is the one that has been sampled so far. -/
def Sampled.Same (input : Sampled F) (h : MetricsHistory F) (r : String) : Prop :=
  ∃ hash, (∀ f ∈ input.containerFacts ops, resourceId f.runtime f.name = r → factIdHash f.id = hash) ∧
    (∀ f ∈ input.restartFacts, resourceId .docker f.name = r → factIdHash f.id = hash) ∧
    ∀ s, (h.samples r idSentinelMetric).getLast? = some s → ops.toU32 s.value = hash

/-- A series goes on: the samples of now come after the old ones, of which the oldest make room. -/
def Continued (now : Int) (capacity : Nat) (before after : List (MetricSample F)) : Prop :=
  after = before ∨ ∃ new, (∀ s ∈ new, s.ts = now) ∧ after = capped capacity (before ++ new)

/-- The samples of every resource that a successful enumeration does not lack are kept, while its container
is the same. -/
def Remembered (input : Sampled F) (before after : MetricsHistory F) : Prop :=
  ∀ r, input.gone r = false → input.Same ops before r → 
    ∀ metric, Continued input.recordedAt before.capacity (before.samples r metric) (after.samples r metric)

/-- The history with all that the ticks have sampled, of which only what is gone has been dropped. -/
def Sampled.ideal (input : Sampled F) (h : MetricsHistory F) : MetricsHistory F :=
  if input.usable ops = true then (input.recorded ops h).retainResources fun r => r ∈ input.liveResources ops || !input.gone r else h

def Happening.ideal (h : MetricsHistory F) : Happening F → MetricsHistory F
  | .tick input => input.ideal ops h
  | _ => h

/-- Of all that has been sampled of the disk, each sample is above the one before. -/
def Grows (ideal : MetricsHistory F) (input : Sampled F) (key : Key) : Prop :=
  ∃ f ∈ input.fills ops wording, f.key nodeId = key ∧
    ((input.ideal ops ideal).samples f.resource diskMetric).IsChain fun earlier later => ops.lt earlier.value later.value = true

/-- When any sampler delivers data, there is a fact for every resource with samples that is not gone; no
acknowledgement in force covers a waiting finding of a resource that has been looked at; and where its usage grows,
the samples suffice for the analysis to say so. -/
structure Complete (s : Station F) (input : Sampled F) : Prop where
  seen : input.usable ops = true → ∀ r metric, input.gone r = false → s.history.samples r metric ≠ [] → r ∈ input.liveResources ops
  open_ : ∀ f ∈ input.fills ops wording, Pending s.proposals (f.key nodeId) →
    s.acks.suppresses input.analysedAt (f.key nodeId).1 (f.key nodeId).2 = false
  telling : ∀ f ∈ input.fills ops wording, Pending s.proposals (f.key nodeId) →
    ((input.ideal ops s.history).samples f.resource diskMetric).IsChain (fun earlier later => ops.lt earlier.value later.value = true) →
      Telling ops ((input.ideal ops s.history).samples f.resource diskMetric) f.usedPct

section
variable {ops} {input : Sampled F} {h before after : MetricsHistory F} {r resource metric : String} {hash : Nat} {now : Int}

theorem capped_capped {α : Type} (capacity : Nat) (items more : List α) :
    capped capacity (capped capacity items ++ more) = capped capacity (items ++ more) := by
  unfold capped
  by_cases room : items.length ≤ capacity
  · rw [Nat.sub_eq_zero_of_le room, List.drop_zero]
  · have cut : (items.drop (items.length - capacity)).length = capacity := by
      rw [List.length_drop]
      omega
    have first : (items.drop (items.length - capacity) ++ more).length - capacity = more.length := by
      rw [List.length_append, cut]
      omega
    have second : (items ++ more).length - capacity = items.length - capacity + more.length := by
      rw [List.length_append]
      omega
    rw [first, second, ← List.drop_drop, List.drop_append_of_le_length (Nat.sub_le _ _)]

theorem Continued.trans {capacity : Nat} {first second third : List (MetricSample F)} (left : Continued now capacity first second)
    (right : Continued now capacity second third) : Continued now capacity first third := by
  rcases left with rfl | ⟨new, recent, rfl⟩
  · exact right
  · rcases right with rfl | ⟨later, recently, rfl⟩
    · exact .inr ⟨new, recent, rfl⟩
    · refine .inr ⟨new ++ later, ?_, by rw [capped_capped, List.append_assoc]⟩
      exact fun s member => (List.mem_append.mp member).elim (recent s) (recently s)

def Noted (ops : Floats F) (h : MetricsHistory F) (r : String) (hash : Nat) : Prop :=
  ∀ s, (h.samples r idSentinelMetric).getLast? = some s → ops.toU32 s.value = hash

def GoesOn (ops : Floats F) (now : Int) (r : String) (hash : Nat) (before after : MetricsHistory F) : Prop :=
  Noted ops before r hash → after.capacity = before.capacity ∧
    (∀ metric, Continued now before.capacity (before.samples r metric) (after.samples r metric)) ∧ Noted ops after r hash

theorem GoesOn.trans {mid : MetricsHistory F} (left : GoesOn ops now r hash before mid) (right : GoesOn ops now r hash mid after) :
    GoesOn ops now r hash before after := by
  intro noted
  obtain ⟨room, series, still⟩ := left noted
  obtain ⟨space, more, last⟩ := right still
  refine ⟨space.trans room, fun metric => (series metric).trans ?_, last⟩
  rw [← room]
  exact more metric

variable {s : Station F} {key : Key} {wording format nodeId}

variable {store : ProposalStore} {p : Proposal} {at_ : Time} {round : Round}

end

def plainly : Wording ℚ := ⟨fun _ _ => ⟨"", "", [], .manual "" []⟩, fun _ _ => ⟨"", "", [], .manual "" []⟩⟩

def sampledAt (df : Option (List (DfRow ℚ))) (containers : Option (List ContainerInfo)) (usable : Bool) (now : Int) : Sampled ℚ where
  df := df
  docker := containers
  lxc := containers
  restarts := containers
  others := ⟨usable, [], [], fun _ => [], []⟩
  apart := fun _ member => nomatch member
  apartFrom := fun _ _ member => nomatch member
  recordedAt := now * 1000
  prunedAt := now
  sweptAt := now
  analysedAt := now
  closedAt := now
  ids := fun _ => "p2"

/-- `df` fails on a tick. -/
def failing : Sampled ℚ := sampledAt none (some []) true 2100

end Predictive
