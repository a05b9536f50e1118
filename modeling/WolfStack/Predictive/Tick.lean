import WolfStack.Predictive.Decisions
import WolfStack.Effects.Schedule

/-! One iteration of the analyzers, as what it does under each lock that it takes. A second
one may run meanwhile, and so may the operator's calls. The analyzers are known by what they
find; remediation and the metrics history are left out. -/

namespace Predictive
open Effects ProposalStore
open Effects.Program (send)

inductive AckScope where
  | cluster
  | node (nodeId : String)
  | resource (nodeId resourceId : String)
deriving DecidableEq, Repr

def AckScope.covers (scope : AckScope) (proposal : ProposalScope) : Bool :=
  match scope with
  | .cluster => true
  | .node nodeId => nodeId = proposal.nodeId
  | .resource nodeId resourceId => nodeId = proposal.nodeId ∧ proposal.resourceId = some resourceId

structure Ack where
  id : String
  findingType : String
  scope : AckScope
  reason : String
  acknowledgedBy : String
  createdAt : Time
  expires : Option Time
deriving DecidableEq, Repr

/-- An acknowledgement without an end stands until it is revoked. -/
def Ack.isActive (now : Time) (a : Ack) : Bool := a.expires.all fun e => now < e

abbrev AckStore := List Ack

namespace AckStore

def suppresses (now : Time) (findingType : String) (scope : ProposalScope) (acks : AckStore) : Bool :=
  acks.any fun a => a.isActive now && a.findingType = findingType && a.scope.covers scope

def pruneExpired (now : Time) (acks : AckStore) : AckStore := acks.filter fun a => a.isActive now

end AckStore

inductive AckChange where
  | add (ack : Ack)
  | upsertReplica (ack : Ack)
  | remove (id : String)

def AckChange.apply (acks : AckStore) : AckChange → AckStore
  | .add ack => acks ++ [ack]
  | .upsertReplica ack =>
    if acks.any fun a => a.id = ack.id then acks.map fun a => if a.id = ack.id then ack else a else acks ++ [ack]
  | .remove id => acks.filter fun a => a.id ≠ id

/-- What the samplers have brought, as the analyzers read it: what is found, with the ids that
reports of it get, what has been looked at, also by what the inbox holds, and which kinds of
resource have been listed completely. -/
structure Samples where
  usable : Bool
  found : List (String × Finding)
  covered : List Key
  coveredFrom : ProposalStore → List Key
  listed : List (String × Bool)

structure Round where
  nodeId : String
  samples : Samples
  acks : AckStore
  proposals : ProposalStore
  analysedAt : Time

namespace Round
variable (round : Round)

def wanted (finding : Finding) : Bool :=
  !round.acks.suppresses round.analysedAt finding.findingType finding.scope &&
    !round.proposals.isSuppressed round.analysedAt finding.findingType finding.scope

def newProposals : List Proposal :=
  (round.samples.found.filter fun f => round.wanted f.2).map fun f => newRule f.1 round.analysedAt f.2

def covered : List Key := round.samples.covered ++ round.samples.coveredFrom round.proposals

def emitted : List Key := round.newProposals.map Proposal.dedupKey

def vanished : List Key :=
  (round.samples.listed.flatMap fun kind => vanishedScopes [kind.1] kind.2 round.covered round.proposals round.nodeId).filter
    fun key => key ∉ round.emitted

end Round

def raiseAll (now : Time) (incoming : List Proposal) (store : ProposalStore) : ProposalStore :=
  incoming.foldl (fun store p => (store.upsert now p).1) store

def closing (now : Time) (round : Round) (store : ProposalStore) : ProposalStore :=
  let raised := raiseAll now round.newProposals store
  let touched := raised.touchChecked now round.covered
  let cleared := (touched.autoResolveCleared now round.covered round.emitted).1
  (cleared.resolveVanished now round.vanished).1

def Severity.pages : Severity → Bool
  | .critical | .high => true
  | _ => false

/-- `find_first_appearance_alerts`. -/
def findFirstAppearanceAlerts (previous current : ProposalStore) : List Proposal :=
  let prevPending := (previous.filter Proposal.isPending).map Proposal.dedupKey
  current.filter fun p => p.isPending && p.severity.pages && p.dedupKey ∉ prevPending

structure Inbox where
  proposals : ProposalStore
  acks : AckStore
  now : Time

inductive Decision where
  | snooze (id : String) (until_ : Time)
  | dismiss (id reason : String)
  | recordApproval (id : String) (outcome : ApprovalOutcome)
  | restore (id : String)

def Decision.apply (now : Time) (store : ProposalStore) : Decision → ProposalStore
  | .snooze id until_ => accepted store (store.snooze now id until_)
  | .dismiss id reason => accepted store (store.dismiss now id reason)
  | .recordApproval id outcome => accepted store (store.recordApproval now id outcome)
  | .restore id => accepted store (store.restore now id)

/-- `close` answers with the alerts to be dispatched. -/
inductive Section : Type → Type where
  | sample : Section Samples
  | pruneAcks : Section Unit
  | sweep (nodeId : String) : Section Unit
  | readAcks : Section AckStore
  | readProposals : Section ProposalStore
  | clock : Section Time
  | close (round : Round) : Section (List Proposal)
  | operate (decision : Decision) : Section Unit
  | acknowledge (change : AckChange) : Section Unit

def tick (nodeId : String) : Program Section Unit := do
  let samples ← send .sample
  if samples.usable then
    send .pruneAcks
    send (.sweep nodeId)
    let acks ← send .readAcks
    let proposals ← send .readProposals
    let analysedAt ← send .clock
    let _alerts ← send (.close ⟨nodeId, samples, acks, proposals, analysedAt⟩)
    return ()
  else return ()

def sweeping (format : Time → String) (now : Time) (nodeId : String) (store : ProposalStore) : ProposalStore :=
  ((store.pruneResolvedOlderThan now resolvedRetentionDays).1.resolveOrphaned format now nodeId orphanFuseDays).1

/-- `samples` are what the samplers bring, where they are asked. -/
def Section.run (format : Time → String) (samples : Samples) (inbox : Inbox) : {β : Type} → Section β → Inbox × β
  | _, .sample => (inbox, samples)
  | _, .pruneAcks => ({ inbox with acks := inbox.acks.pruneExpired inbox.now }, ())
  | _, .sweep nodeId => ({ inbox with proposals := sweeping format inbox.now nodeId inbox.proposals }, ())
  | _, .readAcks => (inbox, inbox.acks)
  | _, .readProposals => (inbox, inbox.proposals)
  | _, .clock => (inbox, inbox.now)
  | _, .close round =>
    let after := closing inbox.now round inbox.proposals
    ({ inbox with proposals := after }, findFirstAppearanceAlerts round.proposals after)
  | _, .operate decision => ({ inbox with proposals := decision.apply inbox.now inbox.proposals }, ())
  | _, .acknowledge change => ({ inbox with acks := change.apply inbox.acks }, ())

def Section.Runs (format : Time → String) (inbox : Inbox) {β : Type} (operation : Section β) (value : β) (after : Inbox) : Prop :=
  ∃ samples, operation.run format samples inbox = (after, value)

/-- What runs on a node: ticks, from the loop or on demand, and calls of the operator. -/
inductive Task (nodeId : String) : Program Section Unit → Prop
  | tick : Task nodeId (tick nodeId)
  | operate (decision : Decision) : Task nodeId (send (.operate decision))
  | acknowledge (change : AckChange) : Task nodeId (send (.acknowledge change))

def Pending (store : ProposalStore) (key : Key) : Prop := ∃ p ∈ store, p.dedupKey = key ∧ p.isPending = true

instance (store : ProposalStore) (key : Key) : Decidable (Pending store key) :=
  inferInstanceAs (Decidable (∃ p ∈ store, p.dedupKey = key ∧ p.isPending = true))

variable {store : ProposalStore} {p q : Proposal} {now : Time} {key : Key} {format : Time → String}

theorem Pending.entry (pending : Pending store key) (single : Single store) (member : p ∈ store) (same : p.dedupKey = key) :
    p.isPending = true := by
  obtain ⟨q, there, named, waits⟩ := pending
  rw [single.eq member there (same.trans named.symm)]
  exact waits

theorem pending_upsert (single : Single store) (pending : Pending store key) (incoming : Proposal) :
    Pending (store.upsert now incoming).1 key := by
  obtain ⟨p, member, named, waits⟩ := pending
  unfold ProposalStore.upsert
  by_cases same : p.dedupKey = incoming.dedupKey
  · rw [single.find member same]
    dsimp only
    split
    · exact ⟨p, member, named, waits⟩
    · refine ⟨refreshed now incoming p, ?_, named, rfl⟩
      have found : (store.modifyFirst (fun q => decide (q.dedupKey = incoming.dedupKey)) (refreshed now incoming)).find?
          (fun q => decide (q.dedupKey = incoming.dedupKey)) = _ := find?_modifyFirst store fun _ => rfl
      rw [single.find member same, Option.map_some] at found
      exact List.mem_of_find?_eq_some found
  · split
    · split
      · exact ⟨p, member, named, waits⟩
      · exact ⟨p, mem_modifyFirst member (by simpa using same), named, waits⟩
    · exact ⟨p, List.mem_append_left _ member, named, waits⟩

theorem raiseAll_single (single : Single store) (incoming : List Proposal) : Single (raiseAll now incoming store) := by
  induction incoming generalizing store with
  | nil => exact single
  | cons first rest ih => exact ih (single_upsert single first)

theorem pending_raiseAll (single : Single store) (pending : Pending store key) (incoming : List Proposal) :
    Pending (raiseAll now incoming store) key := by
  induction incoming generalizing store with
  | nil => exact pending
  | cons first rest ih => exact ih (single_upsert single first) (pending_upsert single pending first)

theorem of_mem_touchChecked {covered : List Key} (member : p ∈ store.touchChecked now covered) :
    ∃ old ∈ store, old.dedupKey = p.dedupKey ∧ old.status = p.status ∧ old.severity = p.severity ∧ old.why = p.why := by
  obtain ⟨old, here, rfl⟩ := List.mem_map.mp member
  refine ⟨old, here, ?_⟩
  split
  · exact ⟨rfl, rfl, rfl, rfl⟩
  · exact ⟨rfl, rfl, rfl, rfl⟩

theorem pending_touchChecked (pending : Pending store key) (covered : List Key) : Pending (store.touchChecked now covered) key := by
  obtain ⟨p, member, named, waits⟩ := pending
  refine ⟨_, List.mem_map.mpr ⟨p, member, rfl⟩, ?_, ?_⟩
  · split <;> exact named
  · split <;> exact waits

theorem single_closing (single : Single store) (round : Round) : Single (closing now round store) := by
  unfold closing
  rw [resolveVanished_eq]
  refine single_of_keys ?_ keys_resolve
  refine single_of_keys ?_ keys_resolve
  exact single_of_keys (raiseAll_single single _) (keys_touchChecked _)

theorem cleared_of_closing (single : Single store) {round : Round} (pending : Pending store key)
    (member : q ∈ closing now round store) (named : q.dedupKey = key) {at_ : Time}
    (closed : q.status = .approved at_ .conditionCleared) : key ∈ round.covered ∧ key ∉ round.emitted := by
  unfold closing at member
  rw [resolveVanished_eq] at member
  have raised : Single (raiseAll now round.newProposals store) := raiseAll_single single round.newProposals
  have touched : Single ((raiseAll now round.newProposals store).touchChecked now round.covered) :=
    single_of_keys raised (keys_touchChecked _)
  have waits : Pending ((raiseAll now round.newProposals store).touchChecked now round.covered) key :=
    pending_touchChecked (pending_raiseAll single pending round.newProposals) round.covered
  rcases of_mem_resolve member with ⟨here, -⟩ | ⟨old, -, -, o, gone, rfl⟩
  · rcases of_mem_resolve here with ⟨there, -⟩ | ⟨old, there, -, o, outcome, rfl⟩
    · have still := waits.entry touched there named
      rw [Proposal.isPending, closed] at still
      exact absurd still (by simp)
    · change old.dedupKey = key at named
      rw [cleared, named] at outcome
      split at outcome
      · assumption
      · exact absurd outcome (by simp)
  · rw [absent] at gone
    split at gone
    · rw [← Option.some.inj gone] at closed
      simp [marked] at closed
    · exact absurd gone (by simp)

theorem waits_resolve {outcome : Proposal → Option ApprovalOutcome} (member : p ∈ (store.resolve now outcome).1)
    (waits : p.isPending = true) : p ∈ store := by
  rcases of_mem_resolve member with ⟨here, -⟩ | ⟨old, -, -, o, -, rfl⟩
  · exact here
  · exact absurd waits (by simp [marked, Proposal.isPending])

theorem waits_settle {id : String} {status : ProposalStatus} (closed : status ≠ .pending)
    (member : p ∈ accepted store (store.settle now id status)) (waits : p.isPending = true) : p ∈ store := by
  unfold settle at member
  cases found : store.get id with
  | none =>
    rw [found] at member
    exact member
  | some _ =>
    rw [found] at member
    rcases of_mem_modifyFirst member with here | ⟨old, -, rfl⟩
    · exact here
    · exact absurd (of_decide_eq_true waits) closed

theorem waits_restore {id : String} (member : p ∈ accepted store (store.restore now id)) :
    p ∈ store ∨ ∃ old, store.get id = some old ∧ p = marked now .pending old := by
  unfold restore at member
  cases found : store.get id with
  | none =>
    rw [found] at member
    exact .inl member
  | some old =>
    rw [found] at member
    dsimp only at member
    have changed : p ∈ store.modifyFirst (fun p => p.id = id) (marked now .pending) →
        p ∈ store ∨ ∃ old, store.get id = some old ∧ p = marked now .pending old := of_mem_modifyFirst
    rw [found] at changed
    split at member
    · exact changed member
    · exact changed member
    · exact .inl member

/-- An entry that a report touches has its severity and its text from then on. -/
theorem of_mem_upsert {incoming : Proposal} (member : p ∈ (store.upsert now incoming).1) :
    p ∈ store ∨ incoming.dedupKey = p.dedupKey ∧ incoming.severity = p.severity ∧ incoming.why = p.why := by
  unfold ProposalStore.upsert at member
  split at member
  · split at member
    · exact .inl member
    · rcases of_mem_modifyFirst member with kept | ⟨old, picked, rfl⟩
      · exact .inl kept
      · have named : old.dedupKey = incoming.dedupKey := by simpa using List.find?_some picked
        exact .inr ⟨named.symm, rfl, rfl⟩
  · rcases List.mem_append.mp member with kept | new
    · exact .inl kept
    · rw [List.mem_singleton.mp new]
      exact .inr ⟨rfl, rfl, rfl⟩

theorem of_mem_raiseAll {incoming : List Proposal} (member : p ∈ raiseAll now incoming store) :
    p ∈ store ∨ ∃ q ∈ incoming, q.dedupKey = p.dedupKey ∧ q.severity = p.severity ∧ q.why = p.why := by
  induction incoming generalizing store with
  | nil => exact .inl member
  | cons first rest ih =>
    rcases ih member with there | ⟨q, later, same⟩
    · exact (of_mem_upsert there).imp_right fun same => ⟨first, List.mem_cons_self, same⟩
    · exact .inr ⟨q, List.mem_cons_of_mem _ later, same⟩

/-- What waits after the window waited before, as severe as it is, or is reported as it is. -/
theorem waits_closing {round : Round} (member : p ∈ closing now round store) (waits : p.isPending = true) :
    (∃ old ∈ store, old.dedupKey = p.dedupKey ∧ old.isPending = true ∧ old.severity = p.severity) ∨
      ∃ q ∈ round.newProposals, q.dedupKey = p.dedupKey ∧ q.severity = p.severity ∧ q.why = p.why := by
  unfold closing at member
  rw [resolveVanished_eq] at member
  have touched := waits_resolve (waits_resolve member waits) waits
  obtain ⟨raised, there, same, status, severity, why⟩ := of_mem_touchChecked touched
  have waited : raised.isPending = true := by rw [Proposal.isPending, status]; exact waits
  rcases of_mem_raiseAll there with kept | ⟨q, reported, named, level, text⟩
  · exact .inl ⟨raised, kept, same, waited, severity⟩
  · exact .inr ⟨q, reported, named.trans same, level.trans severity, text.trans why⟩

theorem single_decision (single : Single store) (decision : Decision) : Single (decision.apply now store) := by
  cases decision with
  | restore id => exact single_of_keys single (keys_restore id)
  | _ => exact single_of_keys single (keys_settle _ _)

theorem single_sweeping (single : Single store) (nodeId : String) : Single (sweeping format now nodeId store) :=
  single_of_keys (single_sublist single List.filter_sublist) keys_resolve

theorem Section.Runs.single {inbox after : Inbox} {β : Type} {operation : Section β} {value : β}
    (runs : operation.Runs format inbox value after) (single : Single inbox.proposals) : Single after.proposals := by
  obtain ⟨samples, ran⟩ := runs
  cases operation with
  | sweep nodeId =>
    cases ran
    exact single_sweeping single nodeId
  | close round =>
    cases ran
    exact single_closing single round
  | operate decision =>
    cases ran
    exact single_decision single decision
  | _ =>
    cases ran
    exact single

def Section.closes : {β : Type} → Section β → Bool
  | _, .close _ => true
  | _, _ => false

section
variable {σ : Type} {rules : Rules σ Section} {nodeId : String}

/-- The window of a tick may count on what held of the inbox when the tick read it, where the others
and the look at the clock keep it. -/
theorem tick_triple {held : ProposalStore → σ → Prop} (stable : ∀ snapshot, rules.Stable (held snapshot))
    (execute : ∀ before {β : Type} (operation : Section β) value after, rules.valid before → operation.closes = false →
      rules.commits before operation value after → rules.valid after ∧ rules.guarantee before after)
    (read : ∀ before snapshot after, rules.valid before → rules.commits before .readProposals snapshot after → held snapshot after)
    (clock : ∀ before now after snapshot, rules.valid before → held snapshot before → rules.commits before .clock now after →
      held snapshot after)
    (close : ∀ before round alerts after, rules.valid before → held round.proposals before →
      rules.commits before (.close round) alerts after → rules.valid after ∧ rules.guarantee before after) :
    rules.Triple (fun _ => True) (tick nodeId) fun _ _ => True := by
  have plain : rules.Stable fun _ => True := fun _ _ _ _ _ _ => trivial
  have step {β : Type} (operation : Section β) (opens : operation.closes = false) (before : σ) (value : β) (after : σ)
      (valid : rules.valid before) (_ : True) (law : rules.commits before operation value after) :
      rules.valid after ∧ rules.guarantee before after ∧ True := by
    obtain ⟨still, promise⟩ := execute before operation value after valid opens law
    exact ⟨still, promise, trivial⟩
  unfold tick
  simp only [Program.bind_eq, Program.send_bind]
  refine .request plain (step _ rfl) fun samples => ?_
  split
  · refine .request plain (step _ rfl) fun _ => .request plain (step _ rfl) fun _ => .request plain (step _ rfl) fun acks => ?_
    refine .leading held plain ?_ fun snapshot => .leading (fun _ => held snapshot) (stable snapshot) ?_ fun analysedAt => ?_
    · intro before snapshot after valid _ law
      obtain ⟨still, promise⟩ := execute before _ snapshot after valid rfl law
      exact ⟨still, promise, read before snapshot after valid law⟩
    · intro before now after valid holds law
      obtain ⟨still, promise⟩ := execute before _ now after valid rfl law
      exact ⟨still, promise, clock before now after snapshot valid holds law⟩
    · refine .request (stable snapshot) ?_ fun alerts => .pure () plain fun _ _ _ => trivial
      intro before alerts after valid holds law
      obtain ⟨still, promise⟩ := close before _ alerts after valid holds law
      exact ⟨still, promise, trivial⟩
  · exact .pure () plain fun _ _ _ => trivial

theorem Task.triple {program : Program Section Unit} (body : Task nodeId program)
    (execute : ∀ before {β : Type} (operation : Section β) value after, rules.valid before → operation.closes = false →
      rules.commits before operation value after → rules.valid after ∧ rules.guarantee before after)
    (ticks : rules.Triple (fun _ => True) (Predictive.tick nodeId) fun _ _ => True) :
    rules.Triple (fun _ => True) program fun _ _ => True := by
  have plain : rules.Stable fun _ => True := fun _ _ _ _ _ _ => trivial
  have call (operation : Section Unit) (opens : operation.closes = false) :
      rules.Triple (fun _ => True) (send operation) fun _ _ => True := by
    refine .request plain ?_ fun _ => .pure () plain fun _ _ _ => trivial
    intro before value after valid _ law
    obtain ⟨still, promise⟩ := execute before operation value after valid opens law
    exact ⟨still, promise, trivial⟩
  cases body with
  | tick => exact ticks
  | operate decision => exact call _ rfl
  | acknowledge change => exact call _ rfl

end

end Predictive
