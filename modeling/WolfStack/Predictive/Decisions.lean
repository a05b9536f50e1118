import WolfStack.Predictive.Proposal

/-! What becomes of the operator's decision on a finding, whatever the analyzers find out and
in whatever order they report it. -/

namespace Predictive
open ProposalStore

/-- `RESOLVED_RETENTION_DAYS`. -/
def resolvedRetentionDays : Int := 90

/-- The calls of a tick, with what it has found out, and the calls of the operator. -/
inductive Call where
  | upsert (id : String) (builtAt : Time) (finding : Finding)
  | touchChecked (covered : List Key)
  | autoResolveCleared (covered emitted : List Key)
  | resolveOrphaned (nodeId : String) (fuseDays : Int)
  | resolveVanished (vanished : List Key)
  | pruneResolved
  | snooze (id : String) (until_ : Time)
  | dismiss (id reason : String)
  | recordApproval (id : String) (outcome : ApprovalOutcome)
  | restore (id : String)

def accepted (store : ProposalStore) : Except String ProposalStore → ProposalStore
  | .ok after => after
  | .error _ => store

def Call.apply (format : Time → String) (now : Time) (store : ProposalStore) : Call → ProposalStore
  | .upsert id builtAt finding => (store.upsert now (newRule id builtAt finding)).1
  | .touchChecked covered => store.touchChecked now covered
  | .autoResolveCleared covered emitted => (store.autoResolveCleared now covered emitted).1
  | .resolveOrphaned nodeId fuseDays => (store.resolveOrphaned format now nodeId fuseDays).1
  | .resolveVanished vanished => (store.resolveVanished now vanished).1
  | .pruneResolved => (store.pruneResolvedOlderThan now resolvedRetentionDays).1
  | .snooze id until_ => accepted store (store.snooze now id until_)
  | .dismiss id reason => accepted store (store.dismiss now id reason)
  | .recordApproval id outcome => accepted store (store.recordApproval now id outcome)
  | .restore id => accepted store (store.restore now id)

def Call.target : Call → Option String
  | .snooze id _ | .dismiss id _ | .recordApproval id _ | .restore id => some id
  | _ => none

def run (format : Time → String) (calls : List (Time × Call)) (store : ProposalStore) : ProposalStore :=
  calls.foldl (fun store call => call.2.apply format call.1 store) store

variable {format : Time → String} {now : Time} {store : ProposalStore} {p : Proposal} {call : Call}

def Single (store : ProposalStore) : Prop := (store.map Proposal.dedupKey).Nodup

theorem Single.eq {q : Proposal} (single : Single store) (left : p ∈ store) (right : q ∈ store) (same : p.dedupKey = q.dedupKey) :
    p = q :=
  List.inj_on_of_nodup_map single left right same

theorem Single.find (single : Single store) (member : p ∈ store) {key : Key} (same : p.dedupKey = key) :
    store.find? (fun q => q.dedupKey = key) = some p := by
  cases found : store.find? fun q => q.dedupKey = key with
  | none => exact absurd same (by simpa using List.find?_eq_none.mp found p member)
  | some q =>
    have named : q.dedupKey = key := by simpa using List.find?_some found
    rw [single.eq member (List.mem_of_find?_eq_some found) (same.trans named.symm)]

theorem single_sublist {after : ProposalStore} (single : Single store) (sublist : after.Sublist store) : Single after :=
  (sublist.map Proposal.dedupKey).nodup single

theorem single_of_keys {after : ProposalStore} (single : Single store)
    (same : after.map Proposal.dedupKey = store.map Proposal.dedupKey) : Single after := by
  unfold Single
  rw [same]
  exact single

theorem single_upsert (single : Single store) (incoming : Proposal) : Single (store.upsert now incoming).1 := by
  unfold ProposalStore.upsert
  split
  · split
    · exact single
    · exact single_of_keys single (keys_modifyFirst fun _ => rfl)
  · rename_i missing
    unfold Single
    rw [List.map_append, List.map_singleton, List.nodup_append]
    refine ⟨single, List.nodup_singleton _, ?_⟩
    intro key known other new same
    rw [List.mem_singleton] at new
    obtain ⟨p, member, named⟩ := List.mem_map.mp known
    have apart := List.find?_eq_none.mp missing p member
    exact apart (by simpa using named.trans (same.trans new))

theorem keys_touchChecked (covered : List Key) :
    (store.touchChecked now covered).map Proposal.dedupKey = store.map Proposal.dedupKey := by
  unfold touchChecked
  rw [List.map_map]
  apply List.map_congr_left
  intro p _
  dsimp only [Function.comp_apply]
  split <;> rfl

theorem keys_settle (id : String) (status : ProposalStatus) :
    (accepted store (store.settle now id status)).map Proposal.dedupKey = store.map Proposal.dedupKey := by
  unfold settle
  cases store.get id with
  | none => rfl
  | some _ => exact keys_modifyFirst fun _ => rfl

theorem keys_restore (id : String) : (accepted store (store.restore now id)).map Proposal.dedupKey = store.map Proposal.dedupKey := by
  unfold restore
  cases store.get id with
  | none => rfl
  | some p =>
    dsimp only
    split
    · exact keys_modifyFirst fun _ => rfl
    · exact keys_modifyFirst fun _ => rfl
    · rfl

theorem Single.apply (single : Single store) (call : Call) : Single (call.apply format now store) := by
  cases call with
  | upsert id builtAt finding => exact single_upsert single _
  | touchChecked covered => exact single_of_keys single (keys_touchChecked covered)
  | autoResolveCleared covered emitted => exact single_of_keys single keys_resolve
  | resolveOrphaned nodeId fuseDays => exact single_of_keys single keys_resolve
  | resolveVanished vanished =>
    rw [Call.apply, resolveVanished_eq]
    exact single_of_keys single keys_resolve
  | pruneResolved => exact single_sublist single List.filter_sublist
  | snooze id until_ => exact single_of_keys single (keys_settle id _)
  | dismiss id reason => exact single_of_keys single (keys_settle id _)
  | recordApproval id outcome => exact single_of_keys single (keys_settle id _)
  | restore id => exact single_of_keys single (keys_restore id)

def Stamped (p : Proposal) : Prop := ∀ appliedAt, p.status = .approved appliedAt .applied → appliedAt ≤ p.updatedAt

structure Kept (store : ProposalStore) : Prop where
  single : Single store
  stamped : ∀ p ∈ store, Stamped p

theorem standing_decided (stands : standing now p.status = true) : p.isPending = false := by
  unfold Proposal.isPending
  cases status : p.status with
  | pending =>
    rw [status] at stands
    exact absurd stands Bool.false_ne_true
  | snoozed _ => rfl
  | approved _ _ => rfl
  | dismissed _ _ => rfl

theorem mem_settle (member : p ∈ store) {id : String} (other : some p.id ≠ some id) (status : ProposalStatus) :
    p ∈ accepted store (store.settle now id status) := by
  unfold settle
  cases store.get id with
  | none => exact member
  | some _ => exact mem_modifyFirst member (by simpa using other)

theorem mem_restore (member : p ∈ store) {id : String} (other : some p.id ≠ some id) : p ∈ accepted store (store.restore now id) := by
  unfold restore
  cases store.get id with
  | none => exact member
  | some found =>
    dsimp only
    split
    · exact mem_modifyFirst member (by simpa using other)
    · exact mem_modifyFirst member (by simpa using other)
    · exact member

theorem mem_upsert (single : Single store) (member : p ∈ store) (stands : standing now p.status = true) (incoming : Proposal) :
    p ∈ (store.upsert now incoming).1 := by
  unfold ProposalStore.upsert
  by_cases same : p.dedupKey = incoming.dedupKey
  · rw [single.find member same]
    dsimp only
    rw [if_pos stands]
    exact member
  · split
    · split
      · exact member
      · exact mem_modifyFirst member (by simpa using same)
    · exact List.mem_append_left _ member

theorem grace_retained {now appliedAt updatedAt : Int} (recent : now < appliedAt + hours appliedGraceHours)
    (young : appliedAt ≤ updatedAt) : now - days resolvedRetentionDays ≤ updatedAt := by
  unfold hours appliedGraceHours at recent
  unfold days hours resolvedRetentionDays
  omega

theorem mem_prune (member : p ∈ store) (stamped : Stamped p) (stands : standing now p.status = true)
    (applied : ∀ appliedAt outcome, p.status = .approved appliedAt outcome → outcome = .applied) :
    p ∈ (store.pruneResolvedOlderThan now resolvedRetentionDays).1 := by
  apply List.mem_filter.mpr
  refine ⟨member, ?_⟩
  cases status : p.status with
  | pending => rfl
  | snoozed _ => rfl
  | dismissed _ _ => rfl
  | approved appliedAt outcome =>
    obtain rfl := applied appliedAt outcome status
    have young := stamped appliedAt status
    rw [status] at stands
    exact decide_eq_true (grace_retained (of_decide_eq_true stands) young)

theorem standing_applied {appliedAt : Time} {outcome : ApprovalOutcome} (stands : standing now p.status = true)
    (status : p.status = .approved appliedAt outcome) : outcome = .applied := by
  rw [status] at stands
  cases outcome with
  | applied => rfl
  | failed _ => exact absurd stands Bool.false_ne_true
  | conditionCleared => exact absurd stands Bool.false_ne_true
  | resourceGone _ => exact absurd stands Bool.false_ne_true

theorem mem_apply (kept : Kept store) (member : p ∈ store) (stands : standing now p.status = true) (call : Call)
    (other : call.target ≠ some p.id) : p ∈ call.apply format now store := by
  have decided := standing_decided stands
  cases call with
  | upsert id builtAt finding => exact mem_upsert kept.single member stands _
  | touchChecked covered => exact List.mem_map.mpr ⟨p, member, by rw [if_neg (by simp [decided])]⟩
  | autoResolveCleared covered emitted => exact mem_resolve member decided
  | resolveOrphaned nodeId fuseDays => exact mem_resolve member decided
  | resolveVanished vanished =>
    rw [Call.apply, resolveVanished_eq]
    exact mem_resolve member decided
  | pruneResolved => exact mem_prune member (kept.stamped p member) stands fun _ _ => standing_applied stands
  | snooze id until_ => exact mem_settle member other.symm _
  | dismiss id reason => exact mem_settle member other.symm _
  | recordApproval id outcome => exact mem_settle member other.symm _
  | restore id => exact mem_restore member other.symm

theorem stamped_pending (status : p.status = .pending) : Stamped p := by
  intro appliedAt applied
  rw [status] at applied
  exact absurd applied (by simp)

theorem stamped_marked (status : ProposalStatus) (early : ∀ appliedAt, status = .approved appliedAt .applied → appliedAt ≤ now) :
    Stamped (marked now status p) := fun appliedAt applied => early appliedAt applied

theorem stamped_resolve (stamped : ∀ p ∈ store, Stamped p) {outcome : Proposal → Option ApprovalOutcome} :
    ∀ p ∈ (store.resolve now outcome).1, Stamped p := by
  intro p member
  rcases of_mem_resolve member with ⟨here, -⟩ | ⟨old, here, -, o, -, rfl⟩
  · exact stamped p here
  · apply stamped_marked
    intro appliedAt applied
    rw [ProposalStatus.approved.injEq] at applied
    exact Int.le_of_eq applied.1.symm

theorem stamped_modifyFirst (stamped : ∀ p ∈ store, Stamped p) {pick : Proposal → Bool} {change : Proposal → Proposal}
    (changed : ∀ p, Stamped (change p)) : ∀ p ∈ store.modifyFirst pick change, Stamped p := by
  intro p member
  rcases of_mem_modifyFirst member with here | ⟨old, -, rfl⟩
  · exact stamped p here
  · exact changed old

theorem stamped_upsert (stamped : ∀ p ∈ store, Stamped p) {incoming : Proposal} (new : incoming.status = .pending) :
    ∀ p ∈ (store.upsert now incoming).1, Stamped p := by
  unfold ProposalStore.upsert
  split
  · split
    · exact stamped
    · apply stamped_modifyFirst stamped
      exact fun _ => stamped_pending rfl
  · intro p member
    rcases List.mem_append.mp member with here | added
    · exact stamped p here
    · rw [List.mem_singleton.mp added]
      exact stamped_pending new

theorem stamped_settle (stamped : ∀ p ∈ store, Stamped p) (id : String) {status : ProposalStatus}
    (early : ∀ appliedAt, status = .approved appliedAt .applied → appliedAt ≤ now) :
    ∀ p ∈ accepted store (store.settle now id status), Stamped p := by
  unfold settle
  cases store.get id with
  | none => exact stamped
  | some _ => exact stamped_modifyFirst stamped fun _ => stamped_marked status early

theorem stamped_restore (stamped : ∀ p ∈ store, Stamped p) (id : String) : ∀ p ∈ accepted store (store.restore now id), Stamped p := by
  have reopened : ∀ p, Stamped (marked now .pending p) := fun _ => stamped_pending rfl
  unfold restore
  cases store.get id with
  | none => exact stamped
  | some found =>
    dsimp only
    split
    · exact stamped_modifyFirst stamped reopened
    · exact stamped_modifyFirst stamped reopened
    · exact stamped

theorem Kept.apply (kept : Kept store) (call : Call) : Kept (call.apply format now store) := by
  refine ⟨kept.single.apply call, ?_⟩
  have stamped := kept.stamped
  cases call with
  | upsert id builtAt finding =>
    exact stamped_upsert stamped rfl
  | touchChecked covered =>
    intro p member
    obtain ⟨old, here, rfl⟩ := List.mem_map.mp member
    split
    · exact stamped old here
    · exact stamped old here
  | autoResolveCleared covered emitted => exact stamped_resolve stamped
  | resolveOrphaned nodeId fuseDays => exact stamped_resolve stamped
  | resolveVanished vanished =>
    rw [Call.apply, resolveVanished_eq]
    exact stamped_resolve stamped
  | pruneResolved => exact fun p member => stamped p (List.mem_filter.mp member).1
  | snooze id until_ => exact stamped_settle stamped id (by simp)
  | dismiss id reason => exact stamped_settle stamped id (by simp)
  | recordApproval id outcome =>
    apply stamped_settle stamped id
    intro appliedAt applied
    rw [ProposalStatus.approved.injEq] at applied
    exact Int.le_of_eq applied.1.symm
  | restore id => exact stamped_restore stamped id

theorem Kept.run (kept : Kept store) (calls : List (Time × Call)) : Kept (run format calls store) := by
  induction calls generalizing store with
  | nil => exact kept
  | cons call rest ih => exact ih (kept.apply call.2)

theorem kept_empty : Kept [] := ⟨List.nodup_nil, fun _ member => absurd member List.not_mem_nil⟩

theorem mem_run (kept : Kept store) (member : p ∈ store) {calls : List (Time × Call)}
    (stands : ∀ call ∈ calls, standing call.1 p.status = true) (other : ∀ call ∈ calls, call.2.target ≠ some p.id) :
    p ∈ run format calls store := by
  induction calls generalizing store with
  | nil => exact member
  | cons call rest ih =>
    obtain ⟨stands, later⟩ := List.forall_mem_cons.mp stands
    obtain ⟨apart, others⟩ := List.forall_mem_cons.mp other
    exact ih (kept.apply call.2) (mem_apply kept member stands call.2 apart) later others

theorem find?_modifyFirst (store : ProposalStore) {pick : Proposal → Bool} {change : Proposal → Proposal}
    (same : ∀ p, pick (change p) = pick p) :
    (store.modifyFirst pick change).find? pick = (store.find? pick).map change := by
  induction store with
  | nil => rfl
  | cons head rest ih =>
    rw [modifyFirst]
    split
    · rename_i here
      rw [List.find?_cons_of_pos (by rw [same]; exact here), List.find?_cons_of_pos here, Option.map_some]
    · rename_i apart
      rw [List.find?_cons_of_neg apart, List.find?_cons_of_neg apart, ih]

def reportOf (key : Key) (severity : Severity) : Proposal := newRule "" 0 ⟨key.1, severity, "", "", [], .manual "" [], key.2⟩

def otherSeverity : Severity → Severity
  | .info => .warn
  | _ => .info

theorem otherSeverity_ne (severity : Severity) : otherSeverity severity ≠ severity := by cases severity <;> decide

theorem suppressing_eq (now : Time) (status : ProposalStatus) : suppressing now status = standing now status := by
  cases status with
  | pending => rfl
  | snoozed _ => rfl
  | dismissed _ _ => rfl
  | approved _ outcome => cases outcome <;> rfl

theorem isSuppressed_iff (now : Time) (key : Key) :
    store.isSuppressed now key.1 key.2 = true ↔ ∃ p ∈ store, p.dedupKey = key ∧ standing now p.status = true := by
  simp [isSuppressed, suppressing_eq, Proposal.dedupKey, Prod.ext_iff, and_assoc]

theorem suppressed_iff (single : Single store) (now : Time) (key : Key) :
    store.isSuppressed now key.1 key.2 = true ↔ ∀ incoming : Proposal, incoming.dedupKey = key → (store.upsert now incoming).1 = store := by
  rw [isSuppressed_iff]
  constructor
  · rintro ⟨p, member, named, stands⟩ incoming same
    unfold ProposalStore.upsert
    rw [single.find member (named.trans same.symm)]
    dsimp only
    rw [if_pos stands]
  · intro same
    cases found : store.find? fun p => p.dedupKey = key with
    | none =>
      have grown := same (reportOf key .info) rfl
      rw [ProposalStore.upsert, show (store.find? fun p => p.dedupKey = (reportOf key .info).dedupKey) = none from found] at grown
      have size := congrArg List.length grown
      rw [List.length_append, List.length_singleton] at size
      omega
    | some existing =>
      have named : existing.dedupKey = key := by simpa using List.find?_some found
      refine ⟨existing, List.mem_of_find?_eq_some found, named, ?_⟩
      by_contra lapsed
      have unchanged := same (reportOf key (otherSeverity existing.severity)) rfl
      rw [ProposalStore.upsert, show (store.find? fun p => p.dedupKey = (reportOf key (otherSeverity existing.severity)).dedupKey) =
        some existing from found] at unchanged
      dsimp only at unchanged
      rw [if_neg lapsed] at unchanged
      have again : (store.modifyFirst (fun p => decide (p.dedupKey = key))
          (refreshed now (reportOf key (otherSeverity existing.severity)))).find? (fun p => decide (p.dedupKey = key)) = _ :=
        find?_modifyFirst store fun _ => rfl
      rw [found, show store.modifyFirst (fun p => p.dedupKey = key) _ = store from unchanged, found] at again
      have severity := congrArg Proposal.severity (Option.some.inj again)
      exact otherSeverity_ne _ severity.symm

def Unmoved (format : Time → String) (store : ProposalStore) (calls : List (Time × Call)) (p : Proposal) : Prop :=
  p ∈ run format calls store ∧ ∀ q ∈ run format calls store, q.dedupKey = p.dedupKey → q = p

structure Stands (format : Time → String) (store : ProposalStore) : Prop where
  single : Single store
  dismissed : ∀ p ∈ store, ∀ reason dismissedAt, p.status = .dismissed reason dismissedAt → ∀ calls : List (Time × Call),
    (∀ call ∈ calls, call.2.target ≠ some p.id) → Unmoved format store calls p
  snoozed : ∀ p ∈ store, ∀ until_, p.status = .snoozed until_ → ∀ calls : List (Time × Call),
    (∀ call ∈ calls, call.2.target ≠ some p.id) → (∀ call ∈ calls, call.1 < until_) → Unmoved format store calls p
  applied : ∀ p ∈ store, ∀ appliedAt, p.status = .approved appliedAt .applied → ∀ calls : List (Time × Call),
    (∀ call ∈ calls, call.2.target ≠ some p.id) → (∀ call ∈ calls, call.1 < appliedAt + hours appliedGraceHours) →
      Unmoved format store calls p
  suppressed : ∀ now key, store.isSuppressed now key.1 key.2 = true ↔
    ∀ incoming : Proposal, incoming.dedupKey = key → (store.upsert now incoming).1 = store

theorem Kept.unmoved (kept : Kept store) (member : p ∈ store) {calls : List (Time × Call)}
    (other : ∀ call ∈ calls, call.2.target ≠ some p.id) (stands : ∀ call ∈ calls, standing call.1 p.status = true) :
    Unmoved format store calls p := by
  apply And.intro (mem_run kept member stands other)
  intro q there same
  exact (kept.run calls).single.eq there (mem_run kept member stands other) same

/-- Whatever is called, and when: until its time a decision of the operator is changed by the
operator only. -/
theorem decision_stands (format : Time → String) (calls : List (Time × Call)) : Stands format (run format calls []) := by
  have kept : Kept (run format calls []) := kept_empty.run calls
  refine ⟨kept.single, ?_, ?_, ?_, fun now key => suppressed_iff kept.single now key⟩
  · intro p member reason dismissedAt status later other
    exact kept.unmoved member other fun _ _ => by rw [status]; rfl
  · intro p member until_ status later other early
    exact kept.unmoved member other fun call called => by rw [status]; exact decide_eq_true (early call called)
  · intro p member appliedAt status later other early
    exact kept.unmoved member other fun call called => by rw [status]; exact decide_eq_true (early call called)

def sampleFinding (severity : Severity) : Finding :=
  ⟨"disk_fill_eta", severity, "disk", "filling", [], .manual "clean up" [], ⟨"n1", some "/var"⟩⟩

/-- A finding that is put off for an hour, and taken up again by the operator. -/
theorem snooze_undone : ∃ (calls later : List (Time × Call)) (p q : Proposal) (until_ : Time),
    ((calls ++ later).map Prod.fst).Pairwise (· ≤ ·) ∧ p ∈ run (fun _ => "") calls [] ∧ p.status = .snoozed until_ ∧
      (∀ call ∈ later, call.1 < until_) ∧ q ∈ run (fun _ => "") (calls ++ later) [] ∧ q.dedupKey = p.dedupKey ∧
      q.status = .pending := by
  refine ⟨[(0, .upsert "p1" 0 (sampleFinding .warn)), (1, .snooze "p1" 3600)], [(2, .restore "p1")],
    marked 1 (.snoozed 3600) (newRule "p1" 0 (sampleFinding .warn)), marked 2 .pending (newRule "p1" 0 (sampleFinding .warn)), 3600,
    ?_⟩
  decide

end Predictive
