import WolfStack.Predictive.Tick
import WolfStack.Text.Slices

/-! Does a serious finding page once? Alerts go by the status of the finding when the tick
read the inbox, while its severity is written over in place, and another tick may have
raised it meanwhile. -/

namespace Predictive
open Effects ProposalStore
open Effects.Program (send)

def Severity.marker : Severity → String
  | .critical => "🔴 CRITICAL"
  | .high => "🟠 HIGH"
  | .warn => "🟡 WARN"
  | .info => "ℹ INFO"

/-- The text, cut for a chat. -/
def whyShort (why : String) : Option String :=
  if 480 < Text.byteLen why.toList then (Text.takeBytes 480 why.toList).map fun front => String.ofList front ++ "…" else some why

example : whyShort (String.ofList (List.replicate 479 'a' ++ ['é'])) = none := by
  rw [whyShort, String.toList_ofList]
  decide +kernel

/-- `format_for_channel`; none where it panics. -/
def formatForChannel (p : Proposal) : Option (String × String) :=
  (whyShort p.why).map fun why =>
    let resource := match p.scope.resourceId with
      | some r => "Resource: " ++ r ++ "\n\n" ++ why
      | none => why
    let lines := p.evidence.map fun e => "• " ++ e.label ++ ": " ++ e.value
    let message := if lines = [] then resource else resource ++ "\n\nEvidence:\n" ++ "\n".intercalate lines
    (p.severity.marker ++ " — " ++ p.title, message ++ "\n\nOpen the Predictive Inbox to snooze, dismiss, or apply.")

/-- Whether alerts are on, and whether there is a way to deliver them. -/
structure AlertConfig where
  enabled : Bool
  delivers : Bool

/-- `dispatch_alerts`: those for which `send_local_alert` is called. -/
def dispatchAlerts (config : AlertConfig) (proposals : List Proposal) : List Proposal :=
  if config.enabled && config.delivers then proposals.filter fun p => (formatForChannel p).isSome else []

/-- Since a finding has been waiting: how often it has paged, and whether it has been serious. A finding
is stirred for a tick if it has begun or ceased to wait since the tick read the inbox. -/
structure Pager where
  inbox : Inbox
  config : AlertConfig
  pages : Key → Nat
  serious : Key → Bool
  stirred : Nat → Key → Bool

def Severe (store : ProposalStore) (key : Key) : Prop :=
  ∃ p ∈ store, p.dedupKey = key ∧ p.isPending = true ∧ p.severity.pages = true

instance (store : ProposalStore) (key : Key) : Decidable (Severe store key) :=
  inferInstanceAs (Decidable (∃ p ∈ store, p.dedupKey = key ∧ p.isPending = true ∧ p.severity.pages = true))

def Section.alerts : {β : Type} → Section β → β → List Proposal
  | _, .close _, alerts => alerts
  | _, _, _ => []

def Section.looks : {β : Type} → Section β → Bool
  | _, .readProposals => true
  | _, _ => false

def alertsFor (alerts : List Proposal) (key : Key) : Nat := alerts.countP fun p => p.dedupKey = key

/-- A period begins where a finding comes to wait. -/
def Pager.record (g : Pager) (task : Nat) {β : Type} (operation : Section β) (value : β) (after : Inbox) : Pager where
  inbox := after
  config := g.config
  pages key := (if Pending g.inbox.proposals key then g.pages key else 0) +
    alertsFor (dispatchAlerts g.config (operation.alerts value)) key
  serious key := (decide (Pending g.inbox.proposals key) && g.serious key) || decide (Severe after.proposals key)
  stirred other key := if other = task ∧ operation.looks = true then false
    else g.stirred other key || decide (¬(Pending g.inbox.proposals key ↔ Pending after.proposals key))

/-- From a tick's look at the inbox to its window nothing begins or ceases to wait that is serious or that
the tick reports as serious. What it reports so has been serious in its period, if it waits; if not, it can
be presented and alerts are delivered. And what is restored is not serious. -/
def Pager.Steady (g : Pager) (task : Nat) : {β : Type} → Section β → Prop
  | _, .close round => (∀ key, Severe g.inbox.proposals key → g.stirred task key = false) ∧
      ∀ q ∈ round.newProposals, q.severity.pages = true → g.stirred task q.dedupKey = false ∧
        if Pending g.inbox.proposals q.dedupKey then g.serious q.dedupKey = true
        else (whyShort q.why).isSome = true ∧ (g.config.enabled && g.config.delivers) = true
  | _, .operate (.restore id) => ∀ p, g.inbox.proposals.get id = some p → p.severity.pages = false
  | _, _ => True

/-- The operator may change what becomes of alerts at any time. -/
def pagerSystem (format : Time → String) (nodeId : String) (permitted : Pager → Nat → {β : Type} → Section β → Prop) :
    System Pager Section Nat Unit where
  moves before after := ∃ now config, before.inbox.now ≤ now ∧
    after = { before with inbox := { before.inbox with now := now }, config := config }
  bodies _ := { program | Task nodeId program }
  commits task _ before operation value after := permitted before task operation ∧ ∃ inbox,
    operation.Runs format before.inbox value inbox ∧ after = before.record task operation value inbox
  stops _ _ := True

/-- Every finding that waits has paged once where it has been serious, and not otherwise. -/
def Pager.Paged (g : Pager) : Prop := ∀ key, Pending g.inbox.proposals key → g.pages key = if g.serious key then 1 else 0

structure Pager.Fair (g : Pager) : Prop where
  single : Single g.inbox.proposals
  severe : ∀ key, Severe g.inbox.proposals key → g.serious key = true
  paged : g.Paged

/-- For the other tasks: what is not stirred waits as it did. -/
def pagerPromise (task : Nat) (before after : Pager) : Prop :=
  ∀ other, other ≠ task → ∀ key, after.stirred other key = false →
    before.stirred other key = false ∧ (Pending before.inbox.proposals key ↔ Pending after.inbox.proposals key)

abbrev pagerRules (format : Time → String) (nodeId : String) (task : Nat) : Rules Pager Section :=
  (pagerSystem format nodeId Pager.Steady).rules Pager.Fair pagerPromise task

/-- What the tick has read of what is not stirred. -/
def Settled (task : Nat) (snapshot : ProposalStore) (g : Pager) : Prop :=
  ∀ key, g.stirred task key = false → (Pending snapshot key ↔ Pending g.inbox.proposals key)

variable {store : ProposalStore} {p q : Proposal} {key : Key} {now : Time} {format : Time → String}

theorem Severe.pending (severe : Severe store key) : Pending store key := by
  obtain ⟨p, member, named, waits, -⟩ := severe
  exact ⟨p, member, named, waits⟩

theorem mem_pendingKeys {previous : ProposalStore} :
    key ∈ (previous.filter Proposal.isPending).map Proposal.dedupKey ↔ Pending previous key := by
  constructor
  · intro member
    obtain ⟨p, kept, named⟩ := List.mem_map.mp member
    obtain ⟨here, waits⟩ := List.mem_filter.mp kept
    exact ⟨p, here, named, waits⟩
  · rintro ⟨p, here, named, waits⟩
    exact List.mem_map.mpr ⟨p, List.mem_filter.mpr ⟨here, waits⟩, named⟩

theorem mem_alerts {previous : ProposalStore} :
    p ∈ findFirstAppearanceAlerts previous store ↔
      p ∈ store ∧ p.isPending = true ∧ p.severity.pages = true ∧ ¬Pending previous p.dedupKey := by
  unfold findFirstAppearanceAlerts
  rw [List.mem_filter, Bool.and_eq_true, Bool.and_eq_true, decide_eq_true_eq, mem_pendingKeys, and_assoc]

theorem mem_dispatched {config : AlertConfig} {previous : ProposalStore} :
    p ∈ dispatchAlerts config (findFirstAppearanceAlerts previous store) ↔
      (p ∈ store ∧ p.isPending = true ∧ p.severity.pages = true ∧ ¬Pending previous p.dedupKey) ∧
        (whyShort p.why).isSome = true ∧ (config.enabled && config.delivers) = true := by
  rw [← mem_alerts]
  unfold dispatchAlerts formatForChannel
  split
  · rename_i on
    simp only [List.mem_filter, Option.isSome_map, on, and_true]
  · rename_i off
    simp [off]

theorem alertsFor_eq {alerts : List Proposal} (single : Single alerts) (key : Key) :
    alertsFor alerts key = if ∃ p ∈ alerts, p.dedupKey = key then 1 else 0 := by
  have counted : alertsFor alerts key = (alerts.map Proposal.dedupKey).count key := by
    simp only [alertsFor, List.count, List.countP_map, Function.comp_def, beq_eq_decide]
  rw [counted, List.Nodup.count single]
  simp only [List.mem_map]

theorem single_dispatch {config : AlertConfig} {alerts : List Proposal} (single : Single alerts) : Single (dispatchAlerts config alerts) := by
  unfold dispatchAlerts
  split
  · exact single_sublist single List.filter_sublist
  · exact List.nodup_nil

theorem severe_open {g : Pager} {task : Nat} {after : Inbox} {β : Type} {operation : Section β} {value : β}
    (steady : g.Steady task operation) (runs : operation.Runs format g.inbox value after) (opens : operation.closes = false)
    (severe : Severe after.proposals key) : Severe g.inbox.proposals key := by
  obtain ⟨p, member, named, waits, pages⟩ := severe
  obtain ⟨samples, ran⟩ := runs
  have here : p ∈ g.inbox.proposals → Severe g.inbox.proposals key := fun here => ⟨p, here, named, waits, pages⟩
  cases operation with
  | sweep nodeId =>
    cases ran
    exact here (List.mem_filter.mp (waits_resolve member waits)).1
  | close round => cases opens
  | operate decision =>
    cases ran
    cases decision with
    | restore id =>
      rcases waits_restore member with there | ⟨old, found, rfl⟩
      · exact here there
      · have severe : old.severity.pages = true := pages
        rw [steady old found] at severe
        exact absurd severe Bool.false_ne_true
    | snooze id until_ => exact here (waits_settle (by simp) member waits)
    | dismiss id reason => exact here (waits_settle (by simp) member waits)
    | recordApproval id outcome => exact here (waits_settle (by simp) member waits)
  | _ =>
    cases ran
    exact here member

theorem record_severe {g : Pager} {task : Nat} {after : Inbox} {β : Type} {operation : Section β} {value : β}
    (severe : Severe after.proposals key) : (g.record task operation value after).serious key = true := by
  unfold Pager.record
  simp [severe]

theorem record_promise_pager {g : Pager} {task : Nat} {after : Inbox} {β : Type} (operation : Section β) (value : β) :
    pagerPromise task g (g.record task operation value after) := by
  intro other apart key still
  unfold Pager.record at still
  simp only [apart, false_and, if_false, Bool.or_eq_false_iff, decide_eq_false_iff_not, not_not] at still
  exact still

theorem alerts_open {β : Type} {operation : Section β} (opens : operation.closes = false) (value : β) : operation.alerts value = [] := by
  cases operation with
  | close round => cases opens
  | _ => rfl

theorem fair_open {g : Pager} {task : Nat} {after : Inbox} {β : Type} {operation : Section β} {value : β} (fair : g.Fair)
    (steady : g.Steady task operation) (runs : operation.Runs format g.inbox value after) (opens : operation.closes = false) :
    (g.record task operation value after).Fair := by
  refine ⟨runs.single fair.single, fun key severe => record_severe severe, ?_⟩
  intro key _
  have before : Severe after.proposals key → Pending g.inbox.proposals key ∧ g.serious key = true := by
    intro severe
    have earlier := severe_open steady runs opens severe
    exact ⟨earlier.pending, fair.severe key earlier⟩
  have quiet : dispatchAlerts g.config [] = [] := by unfold dispatchAlerts; split <;> rfl
  have paged := fair.paged key
  unfold Pager.record
  dsimp only
  rw [alerts_open opens, quiet]
  by_cases waited : Pending g.inbox.proposals key
  · by_cases severe : Severe after.proposals key
    · simp [waited, severe, paged waited, before severe, alertsFor]
    · simp [waited, severe, paged waited, alertsFor]
  · have mild : ¬Severe after.proposals key := fun severe => waited (before severe).1
    simp [waited, mild, alertsFor]

/-- What is serious after the window waited before, and was serious, or is reported so; then it did not wait in the
tick's picture either, and is dispatched. -/
theorem severe_close {g : Pager} {task : Nat} {round : Round} (fair : g.Fair) (settled : Settled task round.proposals g)
    (steady : g.Steady task (.close round)) (severe : Severe (closing g.inbox.now round g.inbox.proposals) key) :
    (Pending round.proposals key ↔ Pending g.inbox.proposals key) ∧
      if Pending g.inbox.proposals key then g.serious key = true
      else ∃ p ∈ dispatchAlerts g.config (findFirstAppearanceAlerts round.proposals (closing g.inbox.now round g.inbox.proposals)),
        p.dedupKey = key := by
  obtain ⟨p, member, rfl, waits, pages⟩ := severe
  rcases waits_closing member waits with ⟨old, here, named, waited, level⟩ | ⟨q, reported, named, level, text⟩
  · have before : Severe g.inbox.proposals p.dedupKey := ⟨old, here, named, waited, by rw [level]; exact pages⟩
    refine ⟨settled _ (steady.1 _ before), ?_⟩
    rw [if_pos before.pending]
    exact fair.severe _ before
  · obtain ⟨still, first⟩ := steady.2 q reported (by rw [level]; exact pages)
    rw [named] at still first
    have same := settled _ still
    refine ⟨same, ?_⟩
    split
    · rename_i waited
      rwa [if_pos waited] at first
    · rename_i fresh
      rw [if_neg fresh, text] at first
      exact ⟨p, mem_dispatched.mpr ⟨⟨member, waits, pages, mt same.mp fresh⟩, first⟩, rfl⟩

theorem fair_close {g : Pager} {task : Nat} {after : Inbox} {round : Round} {alerts : List Proposal} (fair : g.Fair)
    (settled : Settled task round.proposals g) (steady : g.Steady task (.close round))
    (runs : (Section.close round).Runs format g.inbox alerts after) : (g.record task (.close round) alerts after).Fair := by
  have single := runs.single fair.single
  refine ⟨single, fun key severe => record_severe severe, ?_⟩
  intro key _
  obtain ⟨samples, ran⟩ := runs
  cases ran
  have paged := fair.paged key
  have first := @severe_close key g task round fair settled steady
  unfold Pager.record
  dsimp only [Section.alerts]
  have once : Single (findFirstAppearanceAlerts round.proposals (closing g.inbox.now round g.inbox.proposals)) :=
    single_sublist single List.filter_sublist
  rw [alertsFor_eq (single_dispatch once)]
  by_cases severe : Severe (closing g.inbox.now round g.inbox.proposals) key
  · obtain ⟨same, first⟩ := first severe
    by_cases waited : Pending g.inbox.proposals key
    · rw [if_pos waited] at first
      have silent : ¬∃ p ∈ dispatchAlerts g.config (findFirstAppearanceAlerts round.proposals
          (closing g.inbox.now round g.inbox.proposals)), p.dedupKey = key := by
        rintro ⟨p, member, rfl⟩
        exact (mem_dispatched.mp member).1.2.2.2 (same.mpr waited)
      simp [severe, waited, paged waited, first, silent]
    · rw [if_neg waited] at first
      simp [severe, waited, first]
  · have silent : ¬∃ p ∈ dispatchAlerts g.config (findFirstAppearanceAlerts round.proposals
        (closing g.inbox.now round g.inbox.proposals)), p.dedupKey = key := by
      rintro ⟨p, member, rfl⟩
      obtain ⟨⟨here, waits, pages, -⟩, -⟩ := mem_dispatched.mp member
      exact severe ⟨p, here, rfl, waits, pages⟩
    by_cases waited : Pending g.inbox.proposals key
    · simp [severe, waited, paged waited, silent]
    · simp [severe, waited, silent]

theorem settled_kept {task : Nat} {snapshot : ProposalStore} {before after : Pager}
    (same : ∀ key, after.stirred task key = false →
      before.stirred task key = false ∧ (Pending before.inbox.proposals key ↔ Pending after.inbox.proposals key))
    (settled : Settled task snapshot before) : Settled task snapshot after :=
  fun key still => (settled key (same key still).1).trans (same key still).2

theorem settled_stable {nodeId : String} {task : Nat} (snapshot : ProposalStore) :
    (pagerRules format nodeId task).Stable (Settled task snapshot) := by
  rintro before after _ _ (⟨now, config, -, rfl⟩ | ⟨other, apart, promise⟩) settled
  · exact settled
  · exact settled_kept (promise task apart.symm) settled

theorem pagerTriple {nodeId : String} {task : Nat} {program : Program Section Unit} (body : Task nodeId program) :
    (pagerRules format nodeId task).Triple (fun _ => True) program fun _ _ => True := by
  have execute (before : Pager) {β : Type} (operation : Section β) (value : β) (after : Pager) (fair : before.Fair)
      (opens : operation.closes = false) (law : (pagerRules format nodeId task).commits before operation value after) :
      after.Fair ∧ pagerPromise task before after := by
    obtain ⟨steady, inbox, runs, rfl⟩ := law
    exact ⟨fair_open fair steady runs opens, record_promise_pager operation value⟩
  refine body.triple execute (tick_triple settled_stable execute ?_ ?_ ?_)
  · rintro before snapshot after - ⟨-, inbox, ⟨samples, ran⟩, rfl⟩
    cases ran
    exact fun key _ => Iff.rfl
  · rintro before now after snapshot - settled ⟨-, inbox, ⟨samples, ran⟩, rfl⟩
    cases ran
    intro key still
    exact settled key (by simpa [Pager.record, Section.looks] using still)
  · rintro before round alerts after fair settled ⟨steady, inbox, runs, rfl⟩
    exact ⟨fair_close fair settled steady runs, record_promise_pager _ alerts⟩

/-- In a run in which standing findings do not become serious, nobody comes between a tick's look at the inbox
and its window, and what is new can be presented, every finding that has been serious has paged once. -/
theorem pages_once (format : Time → String) (nodeId : String) {g : Pager}
    (reached : (pagerSystem format nodeId Pager.Steady).Reaches Pager.Fair g) : g.Paged := by
  have sound : (pagerSystem format nodeId Pager.Steady).Sound Pager.Fair Pager.Fair pagerPromise fun _ _ => True := by
    constructor
    · exact fun g fair => ⟨fair, fun _ => trivial⟩
    · rintro before after fair ⟨now, config, -, rfl⟩
      exact ⟨⟨fair.single, fair.severe, fair.paged⟩, fun _ _ => trivial⟩
    · exact fun _ _ _ _ _ _ _ _ _ => trivial
    · exact fun task program body => pagerTriple body
    · exact fun _ _ _ _ => trivial
  exact (sound.reaches reached).paged

def Pager.serve (script : Nat → Samples) (allowed : Pager → Nat → {β : Type} → Section β → Bool) (task : Nat) (_ : Nat) {β : Type}
    (g : Pager) (operation : Section β) : Option (Pager × β) :=
  if allowed g task operation = true then
    let ran := operation.run (fun _ => "") (script task) g.inbox
    some (g.record task operation ran.2 ran.1, ran.2)
  else none

theorem pager_commits {script : Nat → Samples} {allowed : Pager → Nat → {β : Type} → Section β → Bool}
    {permitted : Pager → Nat → {β : Type} → Section β → Prop}
    (checked : ∀ g task {β : Type} (operation : Section β), allowed g task operation = true → permitted g task operation)
    (task : Nat) (index : Nat) {β : Type} (g : Pager) (operation : Section β) (after : Pager) (value : β)
    (served : Pager.serve script allowed task index g operation = some (after, value)) :
    (pagerSystem (fun _ => "") nodeId permitted).commits task g operation value after := by
  simp only [Pager.serve] at served
  split at served
  · rename_i may
    cases served
    exact ⟨checked g task operation may, _, ⟨script task, rfl⟩, rfl⟩
  · cases served

def pageable (g : Pager) (task : Nat) : {β : Type} → Section β → Bool
  | _, .close round => (g.inbox.proposals.all fun p => !p.isPending || !p.severity.pages || !g.stirred task p.dedupKey) &&
      round.newProposals.all fun q => !q.severity.pages || !g.stirred task q.dedupKey &&
        if Pending g.inbox.proposals q.dedupKey then g.serious q.dedupKey
        else (whyShort q.why).isSome && (g.config.enabled && g.config.delivers)
  | _, .operate (.restore _) => false
  | _, _ => true

theorem pageable_steady (g : Pager) (task : Nat) {β : Type} (operation : Section β) (may : pageable g task operation = true) :
    g.Steady task operation := by
  cases operation with
  | close round =>
    obtain ⟨standing, reported⟩ := (Bool.and_eq_true _ _).mp may
    constructor
    · rintro key ⟨p, member, rfl, waits, severe⟩
      simpa [waits, severe] using List.all_eq_true.mp standing p member
    · intro q member severe
      have one := List.all_eq_true.mp reported q member
      simp only [severe, Bool.not_true, Bool.false_or, Bool.and_eq_true, Bool.not_eq_true'] at one
      refine ⟨one.1, ?_⟩
      split
      · rename_i waits
        simpa [waits] using one.2
      · rename_i fresh
        simpa [fresh] using one.2
  | operate decision =>
    cases decision with
    | restore id => exact absurd may Bool.false_ne_true
    | _ => trivial
  | _ => trivial

/-- The disk is worse by the second tick, for the others it has been bad from the start. -/
def worseSamples (task : Nat) : Samples where
  usable := true
  found := [("p1", sampleFinding (if task = 0 then .warn else .critical))]
  covered := [("disk_fill_eta", ⟨"n1", some "/var"⟩)]
  coveredFrom _ := []
  listed := []

def newPager : Pager := ⟨⟨[], [], 1000⟩, ⟨true, true⟩, fun _ => 0, fun _ => false, fun _ _ => false⟩

theorem newPager_fair : newPager.Fair := by
  refine ⟨List.nodup_nil, ?_, ?_⟩
  · rintro key ⟨p, member, -⟩
    exact absurd member List.not_mem_nil
  · rintro key ⟨p, member, -⟩
    exact absurd member List.not_mem_nil

abbrev PagerTurn := Turn Pager Section Nat Unit

def samePage : Key := ("disk_fill_eta", ⟨"n1", some "/var"⟩)

def twoAtOnce : List PagerTurn := [.start 1 (tick "n1"), .advance 1 6] ++ Turn.whole 2 (tick "n1") 7 ++ [.advance 1 1, .finish 1]

def badThroughout : List PagerTurn := Turn.whole 3 (tick "n1") 7 ++ twoAtOnce

def badLater : List PagerTurn := Turn.whole 0 (tick "n1") 7 ++ Turn.whole 1 (tick "n1") 7

theorem pages_once_sample : ∃ g, (pagerSystem (fun _ => "") "n1" Pager.Steady).Reaches Pager.Fair g ∧
    Pending g.inbox.proposals samePage ∧ g.pages samePage = 1 ∧ g.Paged := by
  obtain ⟨g, reached, passed⟩ := @conduct_reaches _ _ _ _ _ (pagerSystem (fun _ => "") "n1" Pager.Steady)
    (Pager.serve worseSamples pageable) Pager.Fair newPager newPager_fair (pager_commits pageable_steady) badThroughout
    (by simp [badThroughout, twoAtOnce, Turn.whole, Turn.Lawful, pagerSystem, Task.tick])
    (fun g => decide (Pending g.inbox.proposals samePage) && decide (g.pages samePage = 1)) (by decide +kernel)
  simp only [Bool.and_eq_true, decide_eq_true_eq] at passed
  exact ⟨g, reached, passed.1, passed.2, pages_once _ _ reached⟩

theorem pages_else {turns : List PagerTurn} {pages : Nat}
    (lawful : ∀ turn ∈ turns, turn.Lawful (pagerSystem (fun _ => "") "n1" fun _ _ _ _ => True))
    (conducted : (conduct (Pager.serve worseSamples fun _ _ _ _ => true) 0 turns ⟨newPager, fun _ => none⟩).any (fun config =>
      decide (Pending config.shared.inbox.proposals samePage) && decide (config.shared.pages samePage = pages) &&
        config.shared.serious samePage) = true) (wrong : pages ≠ 1) :
    ∃ g, (pagerSystem (fun _ => "") "n1" fun _ _ _ _ => True).Reaches Pager.Fair g ∧ g.pages samePage = pages ∧ ¬g.Paged := by
  obtain ⟨g, reached, passed⟩ := @conduct_reaches _ _ _ _ _ (pagerSystem (fun _ => "") "n1" fun _ _ _ _ => True)
    (Pager.serve worseSamples fun _ _ _ _ => true) Pager.Fair newPager newPager_fair (pager_commits fun _ _ _ _ _ => trivial) turns lawful
    (fun g => decide (Pending g.inbox.proposals samePage) && decide (g.pages samePage = pages) && g.serious samePage) conducted
  simp only [Bool.and_eq_true, decide_eq_true_eq] at passed
  obtain ⟨⟨waits, count⟩, serious⟩ := passed
  refine ⟨g, reached, count, fun paged => ?_⟩
  have once := paged samePage waits
  rw [serious, if_pos rfl, count] at once
  exact wrong once

/-- Two ticks that overlap page twice, and a finding that gets worse does not page. -/
theorem pages_twice_or_never :
    (∃ g, (pagerSystem (fun _ => "") "n1" fun _ _ _ _ => True).Reaches Pager.Fair g ∧ g.pages samePage = 2 ∧ ¬g.Paged) ∧
      ∃ g, (pagerSystem (fun _ => "") "n1" fun _ _ _ _ => True).Reaches Pager.Fair g ∧ g.pages samePage = 0 ∧ ¬g.Paged := by
  have lawful : ∀ turns ∈ [twoAtOnce, badLater], ∀ turn ∈ turns,
      turn.Lawful (pagerSystem (fun _ => "") "n1" fun _ _ _ _ => True) := by
    simp [twoAtOnce, badLater, Turn.whole, Turn.Lawful, pagerSystem, Task.tick]
  constructor
  · exact pages_else (lawful twoAtOnce (by simp)) (by decide +kernel) (by decide)
  · exact pages_else (lawful badLater (by simp)) (by decide +kernel) (by decide)

end Predictive
