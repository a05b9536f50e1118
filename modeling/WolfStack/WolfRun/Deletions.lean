import WolfStack.Effects.Schedule
import WolfStack.WolfRun.State

/-! Does a deleted service stay deleted on one node? Deletions and merges run at the same
time, each over its own sections, and the process may restart between any two of them. -/

namespace WolfRun
open Effects
open Effects.Program (send)

/-- A node while it runs, with what no program sees: when this node last recorded the deletion of a
service, what deletions were recorded since a task read the tombstones, and what a task has taken out
of the list without a merge having put it back. -/
structure Running where
  store : Store
  now : Nat
  boot : Nat
  recorded : String → Option Nat
  since : Nat × Nat → String → Bool
  out : Nat × Nat → String → Bool

/-- A service is there although its deletion was recorded within the retention. -/
def Running.Resurrected (r : Running) : Prop :=
  ∃ svc ∈ r.store.services, ∃ time ∈ r.recorded svc.id, r.now - time < tombstoneRetentionSecs

instance (r : Running) : Decidable r.Resurrected :=
  inferInstanceAs (Decidable (∃ svc ∈ r.store.services, ∃ time ∈ r.recorded svc.id, r.now - time < tombstoneRetentionSecs))

def Running.noted (r : Running) : {β : Type} → Section β → String → Option Nat
  | _, .insertTombstone id => Function.update r.recorded id (some r.now)
  | _, _ => r.recorded

def Section.reads : {β : Type} → Section β → Bool
  | _, .partition _ => true
  | _, _ => false

def Section.records : {β : Type} → Section β → String → Bool
  | _, .insertTombstone id, other => other = id
  | _, _, _ => false

def Section.takes : {β : Type} → Section β → String → Bool
  | _, .removeFirst id, other | _, .removeAll id, other => other = id
  | _, _, _ => false

def Section.puts : {β : Type} → Section β → String → Bool
  | _, .replaceClusters _ accepted, id => accepted.any fun svc => svc.id = id
  | _, _, _ => false

def Running.record (r : Running) (task : Nat × Nat) {β : Type} (operation : Section β) (store : Store) : Running where
  store := store
  now := r.now
  boot := r.boot
  recorded := r.noted operation
  since other id := if other = task ∧ operation.reads = true then false else r.since other id || operation.records id
  out other id := if other = task ∧ operation.takes id = true then true else r.out other id && !operation.puts id

/-- Between reading the tombstones and replacing the list no deletion is recorded of what a merge puts in.
A deletion takes out the only copy there is; when it is recorded, no merge has put the service back since, or
else there is none; and the tombstones that live fit the cap. -/
def Section.Uncrossed (r : Running) (task : Nat × Nat) : {β : Type} → Section β → Prop
  | _, .replaceClusters _ accepted => ∀ svc ∈ accepted, r.since task svc.id = false
  | _, .removeFirst id => (r.store.services.filter fun svc => svc.id = id).length ≤ 1
  | _, .insertTombstone id => (r.out task id = true ∨ ∀ svc ∈ r.store.services, svc.id ≠ id) ∧
      ((r.store.deleted.insert id r.now).filter (Tombstones.Live r.now)).length ≤ tombstoneMax
  | _, _ => True

instance (r : Running) (task : Nat × Nat) {β : Type} (operation : Section β) : Decidable (operation.Uncrossed r task) :=
  match operation with
  | .replaceClusters _ accepted => inferInstanceAs (Decidable (∀ svc ∈ accepted, r.since task svc.id = false))
  | .removeFirst id => inferInstanceAs (Decidable ((r.store.services.filter fun svc => svc.id = id).length ≤ 1))
  | .insertTombstone id => inferInstanceAs (Decidable ((r.out task id = true ∨ ∀ svc ∈ r.store.services, svc.id ≠ id) ∧
      ((r.store.deleted.insert id r.now).filter (Tombstones.Live r.now)).length ≤ tombstoneMax))
  | .removeAll _ | .partition _ | .list _ | .get _ | .push _ | .write _ _ | .remap _ _ | .saveServices | .saveTombstones =>
    inferInstanceAs (Decidable True)

/-- The files hold no service that memory does not, and the tombstones that live. -/
def Running.Settled (r : Running) : Prop :=
  (∀ svc ∈ r.store.servicesJson.getD [], ∃ here ∈ r.store.services, here.id = svc.id) ∧
    ∀ d ∈ r.store.deleted, Tombstones.Live r.now d → d ∈ r.store.deletedJson.getD []

instance (r : Running) : Decidable r.Settled := inferInstanceAs (Decidable (_ ∧ _))

def Anytime (_ : Running) (_ : Nat × Nat) {β : Type} (_ : Section β) : Prop := True

inductive Running.Moves (settled : Running → Prop) : Running → Running → Prop
  | later {r} (secs : Nat) : Moves settled r { r with now := r.now + secs }
  | restart {r store} (may : settled r) (restarts : r.store.Restarts r.now store) :
      Moves settled r { r with store, boot := r.boot + 1 }

def operations : Set (Program Section Unit) :=
  { program | (∃ id, program = (delete id).bind fun _ => .pure ()) ∨
    (∃ id, program = (removeIfExists id).bind fun _ => .pure ()) ∨
    (∃ id, program = recordTombstone id) ∨ ∃ sent, program = (mergeFromPeer sent).bind fun _ => .pure () }

def nodeSystem (permitted : Running → Nat × Nat → {β : Type} → Section β → Prop) (settled : Running → Prop) :
    System Running Section (Nat × Nat) Unit where
  moves := Running.Moves settled
  bodies _ := operations
  commits task _ before operation value after := task.1 = before.boot ∧ permitted before task operation ∧
    ∃ store, operation.Runs before.now before.store value store ∧ after = before.record task operation store
  stops _ _ := False

def Running.Fresh (r : Running) : Prop :=
  r.store.deleted = [] ∧ r.store.deletedJson = none ∧ (∀ id, r.recorded id = none) ∧ ∀ task id, r.out task id = false

/-- The sections that a deletion is made of. -/
def Section.Deleting : {β : Type} → Section β → Prop
  | _, .removeFirst _ | _, .removeAll _ | _, .insertTombstone _ | _, .saveServices | _, .saveTombstones => True
  | _, _ => False

theorem recordTombstone_deleting (id : String) : (recordTombstone id).Yields Section.Deleting fun _ => True :=
  ⟨trivial, fun _ => ⟨trivial, fun _ => trivial⟩⟩

theorem delete_deleting (id : String) : (delete id).Yields Section.Deleting fun _ => True := by
  refine ⟨trivial, fun found => ?_⟩
  cases found with
  | none => trivial
  | some removed => exact ⟨trivial, fun _ => (recordTombstone_deleting id).bind fun _ _ => trivial⟩

theorem removeIfExists_deleting (id : String) : (removeIfExists id).Yields Section.Deleting fun _ => True := by
  refine ⟨trivial, fun removed => ?_⟩
  cases removed with
  | false => exact (recordTombstone_deleting id).bind fun _ _ => trivial
  | true => exact ⟨trivial, fun _ => (recordTombstone_deleting id).bind fun _ _ => trivial⟩

structure Running.Valid (r : Running) : Prop where
  kept : ∀ id time, r.recorded id = some time → r.now - time < tombstoneRetentionSecs → (id, time) ∈ r.store.deleted
  gone : ∀ svc ∈ r.store.services, ∀ time, r.recorded svc.id = some time → tombstoneRetentionSecs ≤ r.now - time
  out : ∀ task id, r.out task id = true → ∀ svc ∈ r.store.services, svc.id ≠ id
  few : r.store.deleted.length ≤ tombstoneMax
  saved : (r.store.deletedJson.getD []).length ≤ tombstoneMax

/-- What was found without a tombstone has been recorded since, or not within the retention. -/
def Passed (task : Nat × Nat) (accepted : Services) (r : Running) : Prop :=
  ∀ svc ∈ accepted, ∀ time, r.recorded svc.id = some time → r.since task svc.id = false → tombstoneRetentionSecs ≤ r.now - time

/-- For the other tasks: what is recorded is recorded since they have read. -/
def runningPromise (task : Nat × Nat) (before after : Running) : Prop :=
  after.now = before.now ∧ ∀ other, other ≠ task → ∀ id, after.since other id = false →
    before.since other id = false ∧ after.recorded id = before.recorded id

abbrev runningRules (task : Nat × Nat) : Rules Running Section :=
  (nodeSystem Section.Uncrossed Running.Settled).rules Running.Valid runningPromise task

theorem record_keeps {r : Running} {task other : Nat × Nat} {β : Type} {operation : Section β} {store : Store} {id : String}
    (resting : other ≠ task ∨ operation.reads = false) (still : (r.record task operation store).since other id = false) :
    r.since other id = false ∧ (r.record task operation store).recorded id = r.recorded id := by
  have rests : ¬(other = task ∧ operation.reads = true) := by
    rintro ⟨same, reads⟩
    rcases resting with apart | idle
    · exact apart same
    · rw [idle] at reads
      cases reads
  simp only [Running.record, if_neg rests, Bool.or_eq_false_iff] at still
  refine ⟨still.1, ?_⟩
  cases operation with
  | insertTombstone recorded => exact Function.update_of_ne (of_decide_eq_false still.2) _ _
  | _ => rfl

theorem passed_stable (task : Nat × Nat) (accepted : Services) : (runningRules task).Stable (Passed task accepted) := by
  rintro before after - - (moved | ⟨other, apart, same, kept⟩) passed svc member time recorded still
  · cases moved with
    | later secs =>
      have old := passed svc member time recorded still
      dsimp only
      omega
    | restart => exact passed svc member time recorded still
  · obtain ⟨was, unchanged⟩ := kept task apart.symm svc.id still
    rw [same]
    exact passed svc member time (unchanged ▸ recorded) was

namespace Running.Valid
variable {r : Running} {task : Nat × Nat}

theorem later (valid : r.Valid) (secs : Nat) : Running.Valid { r with now := r.now + secs } where
  kept id time recorded recent := valid.kept id time recorded (by dsimp only at recent; omega)
  gone svc member time recorded := by
    have old := valid.gone svc member time recorded
    dsimp only
    omega
  out := valid.out
  few := valid.few
  saved := valid.saved

theorem restart (valid : r.Valid) (settled : r.Settled) {store : Store} (restarts : r.store.Restarts r.now store) :
    Running.Valid { r with store, boot := r.boot + 1 } := by
  obtain ⟨listed, kept⟩ := settled
  cases restarts with
  | @loaded order same =>
    have short : (order.filter (Tombstones.Live r.now)).length ≤ tombstoneMax := by
      have bound := valid.saved
      rw [← same.length_eq] at bound
      exact Nat.le_trans (List.length_filter_le _ _) bound
    refine ⟨fun id time recorded recent => ?_, fun svc member time recorded => ?_, fun task id out svc member same => ?_,
      Tombstones.length_prune_le _ _, valid.saved⟩
    · have there := kept _ (valid.kept id time recorded recent) recent
      rw [Tombstones.prune_few short]
      exact List.mem_filter.mpr ⟨same.mem_iff.mpr there, decide_eq_true recent⟩
    · obtain ⟨here, before, same⟩ := listed svc member
      exact valid.gone here before time (same ▸ recorded)
    · obtain ⟨here, before, named⟩ := listed svc member
      exact valid.out task id out here before (named.trans same)

theorem shrink (valid : r.Valid) {β : Type} {operation : Section β} {services : Services} {file : Option Services}
    (quiet : r.noted operation = r.recorded) (fewer : ∀ svc ∈ services, svc ∈ r.store.services)
    (taken : ∀ id, operation.takes id = true → ∀ svc ∈ services, svc.id ≠ id) :
    (r.record task operation { r.store with services, servicesJson := file }).Valid where
  kept := by
    simp only [Running.record, quiet]
    exact valid.kept
  gone svc member := by
    simp only [Running.record, quiet]
    exact valid.gone svc (fewer svc member)
  out other id out svc member := by
    simp only [Running.record] at out member
    split at out
    · rename_i own
      exact taken id own.2 svc member
    · exact valid.out other id (Bool.and_eq_true _ _ ▸ out).1 svc (fewer svc member)
  few := valid.few
  saved := valid.saved

theorem merge (valid : r.Valid) {clusters : List String} {accepted : Services} (passed : Passed task accepted r)
    (uncrossed : (Section.replaceClusters clusters accepted).Uncrossed r task) :
    (r.record task (.replaceClusters clusters accepted)
      { r.store with services := r.store.services.replaceClusters clusters accepted }).Valid where
  kept := valid.kept
  gone svc member time recorded := by
    rcases Services.mem_replaceClusters.mp member with ⟨there, -⟩ | sent
    · exact valid.gone svc there time recorded
    · exact passed svc sent time recorded (uncrossed svc sent)
  out other id out svc member same := by
    simp only [Running.record, Section.takes, Section.puts, and_false, if_false, Bool.and_eq_true, Bool.not_eq_true', List.any_eq_false,
      decide_eq_true_eq, Bool.false_eq_true] at out
    rcases Services.mem_replaceClusters.mp member with ⟨there, -⟩ | sent
    · exact valid.out other id out.1 svc there same
    · exact out.2 svc sent same
  few := valid.few
  saved := valid.saved

theorem insert (valid : r.Valid) {id : String} {order : Tombstones} (same : order.Perm (r.store.deleted.insert id r.now))
    (uncrossed : (Section.insertTombstone id).Uncrossed r task) :
    (r.record task (.insertTombstone id) { r.store with deleted := order.prune r.now }).Valid := by
  obtain ⟨removed, fits⟩ := uncrossed
  have absent : ∀ svc ∈ r.store.services, svc.id ≠ id := removed.elim (valid.out task id) fun none_ => none_
  have short : (order.filter (Tombstones.Live r.now)).length ≤ tombstoneMax := by
    rw [(same.filter _).length_eq]
    exact fits
  refine ⟨fun other time recorded recent => ?_, fun svc member time recorded => ?_, fun other gone out => ?_,
    Tombstones.length_prune_le _ _, valid.saved⟩
  · simp only [Running.record, Running.noted] at recorded recent ⊢
    rw [Tombstones.prune_few short]
    apply List.mem_filter.mpr
    refine ⟨same.mem_iff.mpr (Tombstones.mem_insert.mpr ?_), decide_eq_true recent⟩
    by_cases here : other = id
    · subst other
      simp only [Function.update_self, Option.some.injEq] at recorded
      exact .inl (by rw [recorded])
    · simp only [Function.update_of_ne here] at recorded
      exact .inr ⟨valid.kept other time recorded recent, here⟩
  · simp only [Running.record, Running.noted, Function.update_of_ne (absent svc member)] at recorded
    exact valid.gone svc member time recorded
  · exact valid.out other gone (by simpa [Running.record, Section.takes, Section.puts] using out)

theorem saveTombstones (valid : r.Valid) {file : Option Tombstones} (saved : Saved r.store.deleted r.store.deletedJson file) :
    (r.record task .saveTombstones { r.store with deletedJson := file }).Valid := by
  refine ⟨valid.kept, valid.gone, fun other id out => ?_, valid.few, ?_⟩
  · exact valid.out other id (by simpa [Running.record, Section.takes, Section.puts] using out)
  · cases saved with
    | written => exact valid.few
    | failed => exact valid.saved
    | torn => exact Nat.zero_le _

theorem unlisted (valid : r.Valid) {β : Type} {operation : Section β} (quiet : r.noted operation = r.recorded)
    (taking : ∀ id, operation.takes id = false) {file : Option Services} :
    (r.record task operation { r.store with servicesJson := file }).Valid :=
  valid.shrink quiet (fun _ member => member) fun id takes => absurd ((taking id).symm.trans takes) Bool.false_ne_true

theorem runs (valid : r.Valid) {β : Type} {operation : Section β} {value : β} {store : Store} (deleting : operation.Deleting)
    (uncrossed : operation.Uncrossed r task) (ran : operation.Runs r.now r.store value store) :
    (r.record task operation store).Valid := by
  cases ran with
  | removeFirst =>
    refine valid.shrink rfl (fun svc member => Services.mem_removeFirst member) ?_
    rintro _ taken svc member
    obtain rfl := of_decide_eq_true taken
    exact Services.removeFirst_only uncrossed member
  | removeAll =>
    refine valid.shrink rfl (fun svc member => (Services.mem_removeAll.mp member).1) ?_
    rintro _ taken svc member
    obtain rfl := of_decide_eq_true taken
    exact (Services.mem_removeAll.mp member).2
  | partition | replaceClusters | list | get | push | write | remap => exact deleting.elim
  | insertTombstone same => exact valid.insert same uncrossed
  | saveServices _ => exact valid.unlisted rfl fun _ => rfl
  | saveTombstones saved => exact valid.saveTombstones saved

/-- What has no tombstone has not been recorded within the retention. -/
theorem unmarked (valid : r.Valid) {sent : Services} {svc : WolfRunService} {time : Nat}
    (member : svc ∈ (sent.partition fun svc => r.store.deleted.contains svc.id).2) (recorded : r.recorded svc.id = some time) :
    tombstoneRetentionSecs ≤ r.now - time := by
  rw [List.partition_eq_filter_filter] at member
  by_contra recent
  have marked : r.store.deleted.contains svc.id = true :=
    Tombstones.contains_iff.mpr ⟨time, valid.kept svc.id time recorded (Nat.lt_of_not_le recent)⟩
  simpa [marked] using (List.mem_filter.mp member).2

end Running.Valid

theorem record_running {r : Running} {task : Nat × Nat} {β : Type} (operation : Section β) (store : Store) :
    runningPromise task r (r.record task operation store) :=
  ⟨rfl, fun _ apart _ still => record_keeps (.inl apart) still⟩

theorem anything_running (task : Nat × Nat) : (runningRules task).Stable fun _ => True := fun _ _ _ _ _ _ => trivial

theorem deletionTriple {α : Type} {task : Nat × Nat} {program : Program Section α} (deleting : program.Yields Section.Deleting fun _ => True) :
    (runningRules task).Triple (fun _ => True) program fun _ _ => True := by
  refine (Rules.Triple.yields deleting (anything_running task) ?_).weaken_post fun _ _ _ _ => trivial
  rintro before β operation value after valid - deletes ⟨-, uncrossed, store, ran, rfl⟩
  exact ⟨valid.runs deletes uncrossed ran, record_running operation store, trivial⟩

theorem mergeTriple_running {task : Nat × Nat} (sent : Services) :
    (runningRules task).Triple (fun _ => True) (mergeFromPeer sent) fun _ _ => True := by
  unfold mergeFromPeer
  split
  · exact .pure _ (anything_running task) fun _ _ _ => trivial
  · refine .leading (fun (parted : Services × Services) => Passed task parted.2) (anything_running task) ?_ fun parted => ?_
    · rintro before parted after valid - ⟨-, -, store, ran, rfl⟩
      obtain ⟨rfl, rfl⟩ := ran.means
      exact ⟨valid.unlisted rfl (fun _ => rfl), record_running _ _, fun svc member time recorded _ => valid.unmarked member recorded⟩
    · refine .leading (fun _ _ => True) (passed_stable task parted.2) ?_ fun _ => .request (anything_running task) ?_ fun _ =>
        .pure _ (anything_running task) fun _ _ _ => trivial
      · rintro before _ after valid passed ⟨-, uncrossed, store, ran, rfl⟩
        obtain rfl := ran.means
        exact ⟨valid.merge passed uncrossed, record_running _ _, trivial⟩
      · rintro before _ after valid - ⟨-, uncrossed, store, ran, rfl⟩
        exact ⟨valid.runs trivial uncrossed ran, record_running _ _, trivial⟩

theorem operationTriple {task : Nat × Nat} {program : Program Section Unit} (operation : program ∈ operations) :
    (runningRules task).Triple (fun _ => True) program fun _ _ => True := by
  have done {α : Type} (value : α) : (runningRules task).Triple (fun _ => True) (.pure ()) fun _ _ => True :=
    .pure () (anything_running task) fun _ _ _ => trivial
  rcases operation with ⟨id, rfl⟩ | ⟨id, rfl⟩ | ⟨id, rfl⟩ | ⟨sent, rfl⟩
  · exact (deletionTriple (delete_deleting id)).bind done
  · exact (deletionTriple (removeIfExists_deleting id)).bind done
  · exact deletionTriple (recordTombstone_deleting id)
  · exact (mergeTriple_running sent).bind done

/-- In a run in which no deletion and merge cross, and whose restarts find the files in order, no
service comes back whose deletion was recorded within the retention. -/
theorem deleted_stay_deleted {r : Running}
    (reached : (nodeSystem Section.Uncrossed Running.Settled).Reaches Running.Fresh r) : ¬r.Resurrected := by
  have sound : (nodeSystem Section.Uncrossed Running.Settled).Sound Running.Fresh Running.Valid runningPromise fun _ _ => True := by
    constructor
    · rintro start ⟨none_, unsaved, never, quiet⟩
      refine ⟨⟨fun id time recorded => ?_, fun svc _ time recorded => ?_, fun task id out => ?_, by simp [none_], by simp [unsaved]⟩,
        fun _ => trivial⟩
      · simp [never] at recorded
      · simp [never] at recorded
      · simp [quiet] at out
    · intro before after valid moved
      cases moved with
      | later secs => exact ⟨valid.later secs, fun _ _ => trivial⟩
      | restart may restarts => exact ⟨valid.restart may restarts, fun _ _ => trivial⟩
    · exact fun _ _ _ _ _ _ _ _ _ => trivial
    · exact fun task program body => operationTriple body
    · exact fun _ _ _ _ => trivial
  rintro ⟨svc, member, time, recorded, recent⟩
  have old := (sound.reaches reached).gone svc member time recorded
  omega

def serve (permitted : Running → Nat × Nat → {β : Type} → Section β → Bool) (task : Nat × Nat) (_ : Nat) {β : Type} (r : Running)
    (operation : Section β) : Option (Running × β) :=
  if task.1 = r.boot ∧ permitted r task operation = true then
    some (r.record task operation (operation.run r.now r.store).1, (operation.run r.now r.store).2)
  else none

theorem serve_commits {permitted : Running → Nat × Nat → {β : Type} → Section β → Bool}
    {allowed : Running → Nat × Nat → {β : Type} → Section β → Prop} {settled : Running → Prop}
    (checked : ∀ r task {β : Type} (operation : Section β), permitted r task operation = true → allowed r task operation)
    (task : Nat × Nat) (index : Nat) {β : Type} (r : Running) (operation : Section β) (after : Running) (value : β)
    (served : serve permitted task index r operation = some (after, value)) :
    (nodeSystem allowed settled).commits task r operation value after := by
  simp only [serve] at served
  split at served
  · rename_i may
    cases served
    exact ⟨may.1, checked r task operation may.2, _, operation.run_runs r.now r.store, rfl⟩
  · cases served

def sampleRunning : Running where
  store := { services := [sampleService "svc-a", sampleService "svc-b"], deleted := [], servicesJson := none, deletedJson := none }
  now := 1000
  boot := 0
  recorded _ := none
  since _ _ := false
  out _ _ := false

theorem sampleRunning_fresh : sampleRunning.Fresh := ⟨rfl, rfl, fun _ => rfl, fun _ _ => rfl⟩

abbrev NodeTurn := Turn Running Section (Nat × Nat) Unit

def sent : Services := [sampleService "svc-a", sampleService "svc-b"]

def deletion : Program Section Unit := (delete "svc-a").bind fun _ => .pure ()

def dropping : Program Section Unit := (removeIfExists "svc-b").bind fun _ => .pure ()

def merging (sent : Services) : Program Section Unit := (mergeFromPeer sent).bind fun _ => .pure ()

/-- The process restarts where the files are in order. -/
def restarted (r : Running) : Option Running :=
  if r.Settled then some { r with
    store := { r.store with
      services := r.store.servicesJson.getD [], deleted := (r.store.deletedJson.getD []).prune r.now }
    boot := r.boot + 1 }
  else none

theorem restarted_moves (before after : Running) (moved : restarted before = some after) :
    Running.Moves Running.Settled before after := by
  rw [restarted, Option.ite_none_right_eq_some] at moved
  obtain ⟨settled, same⟩ := moved
  cases same
  exact .restart settled (.loaded (.refl _))

/-- A merge of the one service while the other is removed, a deletion, a merge of both, and a restart. -/
def inOrder : List NodeTurn :=
  [.start (0, 2) (merging [sampleService "svc-a"]), .advance (0, 2) 1] ++ Turn.whole (0, 1) dropping 4 ++
    [.advance (0, 2) 2, .finish (0, 2)] ++ Turn.whole (0, 1) deletion 4 ++ Turn.whole (0, 3) (merging sent) 3 ++
    [.move restarted] ++ Turn.whole (1, 3) (merging sent) 3

def between : List NodeTurn :=
  [.start (0, 2) (merging sent), .advance (0, 2) 1, .start (0, 1) deletion, .advance (0, 1) 4, .advance (0, 2) 1]

private theorem deletion_body : deletion ∈ operations := .inl ⟨_, rfl⟩

private theorem dropping_body : dropping ∈ operations := .inr (.inl ⟨_, rfl⟩)

private theorem merging_body (sent : Services) : merging sent ∈ operations := .inr (.inr (.inr ⟨_, rfl⟩))

theorem deleted_stay_deleted_sample : ∃ r, (nodeSystem Section.Uncrossed Running.Settled).Reaches Running.Fresh r ∧
    (r.store.services = [] ∧ r.boot = 1 ∧ ∀ id ∈ ["svc-a", "svc-b"], (r.recorded id).isSome = true) ∧ ¬r.Resurrected := by
  obtain ⟨r, reached, passed⟩ := @conduct_reaches _ _ _ _ _ (nodeSystem Section.Uncrossed Running.Settled)
    (serve fun r task _ operation => decide (operation.Uncrossed r task)) Running.Fresh _ sampleRunning_fresh
    (serve_commits fun r task _ operation may => of_decide_eq_true may) inOrder
    (by simp [inOrder, Turn.whole, Turn.Lawful, nodeSystem, deletion_body, dropping_body, merging_body]; exact restarted_moves)
    (fun r => decide (r.store.services = [] ∧ r.boot = 1 ∧ ∀ id ∈ ["svc-a", "svc-b"], (r.recorded id).isSome = true)) (by decide +kernel)
  exact ⟨r, reached, of_decide_eq_true passed, deleted_stay_deleted reached⟩

/-- The merge puts back what it had found without a tombstone. -/
theorem deleted_comes_back : ∃ r, (nodeSystem Anytime fun _ => True).Reaches Running.Fresh r ∧ r.Resurrected := by
  obtain ⟨r, reached, passed⟩ := @conduct_reaches _ _ _ _ _ (nodeSystem Anytime fun _ => True)
    (serve fun _ _ _ _ => true) Running.Fresh _ sampleRunning_fresh (serve_commits fun _ _ _ _ _ => trivial) between
    (by simp [between, Turn.Lawful, nodeSystem, deletion_body, merging_body])
    (fun r => decide r.Resurrected) (by decide +kernel)
  exact ⟨r, reached, of_decide_eq_true passed⟩

end WolfRun
