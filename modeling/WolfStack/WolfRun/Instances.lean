import WolfStack.Effects.Schedule
import WolfStack.WolfRun.Ledger
import WolfStack.WolfRun.Requests

/-! Does a pass of the reconciler lose an instance? The services ought to agree with the
ledger, whatever is done between the copy a pass makes and the writing back of what it
found. -/

namespace WolfRun
open Effects
open Effects.Program (send)

/-- A node's state; `copied` is what the pass that runs has copied. -/
structure Books where
  store : Store
  now : Nat
  ledger : Ledger
  copied : Services

def Books.Balanced (b : Books) : Prop := b.store.services.map account = b.ledger

/-- When a service's instances are put back, it has the instances that were copied. -/
def Books.Uncrossed (b : Books) : {β : Type} → Section β → Prop
  | _, .write id (.instances _) => ∀ s ∈ b.store.services.get id, ∀ c ∈ b.copied, c.id = id → records s = records c
  | _, _ => True

def Books.copies (b : Books) (task : Option Nat) : {β : Type} → Section β → Services
  | _, .list cluster => if task = none then b.store.services.listed cluster else b.copied
  | _, _ => b.copied

inductive Beside : Pass Unit → Prop
  | addInstance (id : String) (inst : ServiceInstance) : Beside (addInstance id inst).first
  | removeInstance (id containerName : String) : Beside (removeInstance id containerName).first
  | remapNode (oldNode newNode : String) : Beside ((remapNode oldNode newNode).first.bind fun _ => .pure ())
  | mergeFromPeer (sent : Services) : Beside ((mergeFromPeer sent).first.bind fun _ => .pure ())
  | push (svc : WolfRunService) : Beside (send (.first (.push svc)))
  | delete (id : String) : Beside ((delete id).first.bind fun _ => .pure ())
  | removeIfExists (id : String) : Beside ((removeIfExists id).first.bind fun _ => .pure ())
  | edited (id : String) {edit : Edit} (plain : ¬edit.Rewrites) : Beside ((edited id edit).first.bind fun _ => .pure ())

/-- The pass, and any number of tasks beside it. What the nodes answer is up to them. -/
def passSystem (permitted : Books → {β : Type} → Section β → Prop) : System Books (Joint Section Ask) (Option Nat) Unit where
  moves before after := ∃ secs, after = { before with now := before.now + secs }
  bodies
    | none => { reconcile }
    | some _ => { task | Beside task }
  commits task _ before operation value after :=
    match operation with
    | .first operation => permitted before operation ∧ ∃ store, operation.Runs before.now before.store value store ∧
        after = { before with store, ledger := before.ledger.after operation, copied := before.copies task operation }
    | .second _ => after = before
  stops _ _ := False

abbrev bookRules (task : Option Nat) : Rules Books (Joint Section Ask) :=
  (passSystem Books.Uncrossed).rules Books.Balanced (fun task before after => task ≠ none → after.copied = before.copied) task

variable {task : Option Nat}

theorem balanced_of_plain {b : Books} (balanced : b.Balanced) {β : Type} {operation : Section β} {value : β} {store : Store}
    {copied : Services} (plain : ¬operation.Rewrites) (means : operation.Means b.now b.store value store) :
    Books.Balanced { b with store, ledger := b.ledger.after operation, copied } := by
  rw [Books.Balanced, section_accounts plain means, balanced]

theorem balanced_of_back {b : Books} (balanced : b.Balanced) {id : String} {live : List ServiceInstance} {store : Store}
    {copied : Services} {value : Bool} (same : ∀ s, b.store.services.get id = some s → live.map record = records s)
    (means : (Section.write id (.instances live)).Means b.now b.store value store) :
    Books.Balanced { b with store, ledger := b.ledger.after (.write id (.instances live)), copied } := by
  have unchanged := (rewrite_accounts_iff id live b.now b.store.services).mpr same
  rw [Books.Balanced, means.2]
  exact unchanged.trans (balanced.trans (Ledger.amend_same id b.ledger).symm)

def Books.Plain {β : Type} : Joint Section Ask β → Prop
  | .first operation => ¬operation.Rewrites
  | .second _ => True

theorem besideTriple {index : Nat} {task : Pass Unit} (plain : task.Yields Books.Plain fun _ => True) :
    (bookRules (some index)).Triple (fun _ => True) task fun _ _ => True := by
  refine (Rules.Triple.yields plain (fun _ _ _ _ _ _ => trivial) ?_).weaken_post fun _ _ _ _ => trivial
  intro before β operation value after balanced _ kind law
  cases operation with
  | second operation =>
    obtain rfl := law
    exact ⟨balanced, fun _ => rfl, trivial⟩
  | first operation =>
    obtain ⟨-, store, ran, rfl⟩ := law
    refine ⟨balanced_of_plain balanced kind ran.means, fun _ => ?_, trivial⟩
    cases operation <;> rfl

theorem passTriple : (bookRules none).Triple (fun _ => True) reconcile fun _ _ => True := by
  have free : (bookRules none).Stable fun _ => True := fun _ _ _ _ _ _ => trivial
  refine Rules.Triple.leading (fun _ _ => True) free ?_ fun nodes => ?_
  · intro before value after balanced _ law
    obtain rfl := law
    exact ⟨balanced, fun impossible => absurd rfl impossible, trivial⟩
  have copied : ∀ services : Services, (bookRules none).Stable fun b => b.copied = services := by
    rintro services before after _ _ (⟨secs, rfl⟩ | ⟨other, apart, kept⟩) same
    · exact same
    · exact (kept apart).trans same
  refine Rules.Triple.leading (fun services b => b.copied = services) free ?_ fun services => ?_
  · rintro before value after balanced _ ⟨-, store, ran, rfl⟩
    obtain ⟨rfl, rfl⟩ := ran.means
    exact ⟨balanced, fun impossible => absurd rfl impossible, rfl⟩
  have harmless : Harmless services (if services = [] then query (.pruneRestartBackoff [])
      else (query (.pruneRestartBackoff (services.flatMap fun s => s.instances.map ServiceInstance.containerName))).bind
        fun _ => reconcileAll .empty services) := by
    split
    · exact query_keeps trivial
    · exact (query_keeps trivial).bind fun _ => reconcileAll_harmless _ fun _ member => member
  refine (Rules.Triple.yields harmless (copied services) ?_).weaken_post fun _ _ _ _ => trivial
  intro before β operation value after balanced same kind law
  cases operation with
  | second operation =>
    obtain rfl := law
    exact ⟨balanced, fun impossible => absurd rfl impossible, same⟩
  | first operation =>
    obtain ⟨uncrossed, store, ran, rfl⟩ := law
    have kept : before.copies none operation = services := by
      cases operation with
      | list _ => exact kind.elim
      | _ => exact same
    refine ⟨?_, fun impossible => absurd rfl impossible, kept⟩
    by_cases back : operation.Rewrites
    · cases operation with
      | write id edit =>
        cases edit with
        | instances live =>
          obtain ⟨c, member, named, looked⟩ := kind
          refine balanced_of_back balanced ?_ ran.means
          intro s found
          rw [uncrossed s found c (same ▸ member) named]
          exact looked
        | _ => exact back.elim
      | _ => exact back.elim
    · exact balanced_of_plain balanced back ran.means

private theorem recordTombstone_plain (id : String) :
    (recordTombstone id).Yields (fun operation => ¬operation.Rewrites) fun _ => True :=
  ⟨fun impossible => impossible, fun _ => ⟨fun impossible => impossible, fun _ => trivial⟩⟩

private theorem edited_plain (id : String) {edit : Edit} (plain : ¬edit.Rewrites) :
    (edited id edit).Yields (fun operation => ¬operation.Rewrites) fun _ => True := by
  refine ⟨plain, fun found => ?_⟩
  cases found with
  | false => trivial
  | true => exact ⟨fun impossible => impossible, fun _ => trivial⟩

private theorem touched_plain (id : String) {edit : Edit} (plain : ¬edit.Rewrites) :
    (touched id edit).Yields (fun operation => ¬operation.Rewrites) fun _ => True :=
  ⟨plain, fun _ => ⟨fun impossible => impossible, fun _ => trivial⟩⟩

private theorem delete_plain (id : String) :
    (delete id).Yields (fun operation => ¬operation.Rewrites) fun _ => True := by
  refine ⟨fun impossible => impossible, fun found => ?_⟩
  cases found with
  | none => trivial
  | some removed => exact ⟨fun impossible => impossible, fun _ => (recordTombstone_plain id).bind fun _ _ => trivial⟩

private theorem removeIfExists_plain (id : String) :
    (removeIfExists id).Yields (fun operation => ¬operation.Rewrites) fun _ => True := by
  have record : ∀ removed : Bool, ((recordTombstone id).bind fun _ => .pure removed).Yields
      (fun operation => ¬operation.Rewrites) fun _ => True :=
    fun _ => (recordTombstone_plain id).bind fun _ _ => trivial
  refine ⟨fun impossible => impossible, fun removed => ?_⟩
  cases removed with
  | false => exact record false
  | true => exact ⟨fun impossible => impossible, fun _ => record true⟩

private theorem mergeFromPeer_plain (sent : Services) :
    (mergeFromPeer sent).Yields (fun operation => ¬operation.Rewrites) fun _ => True := by
  unfold mergeFromPeer
  split
  · trivial
  · exact ⟨fun impossible => impossible, fun _ => ⟨fun impossible => impossible, fun _ => ⟨fun impossible => impossible,
      fun _ => trivial⟩⟩⟩

private theorem remapNode_plain (oldNode newNode : String) :
    (remapNode oldNode newNode).Yields (fun operation => ¬operation.Rewrites) fun _ => True := by
  unfold remapNode
  split
  · trivial
  · refine ⟨fun impossible => impossible, fun moved => ?_⟩
    dsimp only [Program.pure_bind]
    split
    · exact ⟨fun impossible => impossible, fun _ => trivial⟩
    · trivial

theorem beside_plain {task : Pass Unit} (beside : Beside task) : task.Yields Books.Plain fun _ => True := by
  have lifted : ∀ {γ : Type} {program : Program Section γ},
      program.Yields (fun operation => ¬operation.Rewrites) (fun _ => True) →
      (program.first.bind fun _ => .pure () : Pass Unit).Yields Books.Plain fun _ => True := by
    intro γ program plain
    have first : (program.first : Pass γ).Yields Books.Plain fun _ => True := plain.first
    exact first.bind fun _ _ => trivial
  cases beside with
  | addInstance id inst =>
    apply Program.Yields.first
    exact touched_plain id fun impossible => impossible
  | removeInstance id containerName =>
    apply Program.Yields.first
    exact touched_plain id fun impossible => impossible
  | remapNode oldNode newNode => exact lifted (remapNode_plain oldNode newNode)
  | mergeFromPeer sent => exact lifted (mergeFromPeer_plain sent)
  | push svc => exact ⟨fun impossible => impossible, fun _ => trivial⟩
  | delete id => exact lifted (delete_plain id)
  | removeIfExists id => exact lifted (removeIfExists_plain id)
  | edited id plain => exact lifted (edited_plain id plain)

/-- In a run in which instances are only put back where none were added or removed since
they were copied, every service has the instances that the ledger says. -/
theorem no_instance_lost {b : Books} (reached : (passSystem Books.Uncrossed).Reaches Books.Balanced b) : b.Balanced := by
  have sound : (passSystem Books.Uncrossed).Sound Books.Balanced Books.Balanced
      (fun task before after => task ≠ none → after.copied = before.copied) fun _ _ => True := by
    constructor
    · exact fun _ balanced => ⟨balanced, fun _ => trivial⟩
    · rintro before after balanced ⟨secs, rfl⟩
      exact ⟨balanced, fun _ _ => trivial⟩
    · exact fun _ _ _ _ _ _ _ _ _ => trivial
    · intro task program body
      cases task with
      | none =>
        obtain rfl := body
        exact passTriple
      | some index => exact besideTriple (beside_plain body)
    · exact fun _ _ _ _ => trivial
  exact sound.reaches reached

def selfNode : Cluster.Node := { Cluster.sampleNode "n1" "10.0.0.1" with isSelf := true }

def sampleContainer (name : String) : Container := ⟨name, some "running", none, "", none⟩

def Ask.answer (now : Nat) (containers : List Container) : {β : Type} → Ask β → β
  | _, .nodes => [selfNode]
  | _, .node _ => some selfNode
  | _, .schedule _ => some "n1"
  | _, .unixNow => now
  | _, .shortUuid => "0"
  | _, .nextWolfnetIp => none
  | _, .wolfnetNetwork => fun _ => false
  | _, .runtimePresent _ => true
  | _, .urls _ => []
  | _, .listLocal _ _ => containers
  | _, .listRemote _ _ _ => .containers containers
  | _, .post _ _ _ => some true
  | _, .createLocal _ _ _ _ _ _ | _, .cloneLocal _ _ | _, .startLocal _ _ | _, .shouldAttemptRestart _ => true
  | _, .attachWolfnet _ _ | _, .stopLocal _ _ | _, .destroyLocal _ _ | _, .clearRestartBackoff _
    | _, .pruneRestartBackoff _ => ()

def keep (permitted : Books → {β : Type} → Section β → Bool) (task : Option Nat) (_ : Nat) {β : Type} (b : Books) :
    Joint Section Ask β → Option (Books × β)
  | .first operation =>
    if permitted b operation = true then
      let ran := operation.run b.now b.store
      some ({ b with store := ran.1, ledger := b.ledger.after operation, copied := b.copies task operation }, ran.2)
    else none
  | .second operation => some (b, operation.answer b.now [sampleContainer "web-1", sampleContainer "web-2"])

theorem keep_commits {permitted : Books → {β : Type} → Section β → Bool} {allowed : Books → {β : Type} → Section β → Prop}
    (checked : ∀ b {β : Type} (operation : Section β), permitted b operation = true → allowed b operation)
    (task : Option Nat) (index : Nat) {β : Type} (b : Books) (operation : Joint Section Ask β) (after : Books) (value : β)
    (kept : keep permitted task index b operation = some (after, value)) :
    (passSystem allowed).commits task b operation value after := by
  cases operation with
  | first operation =>
    simp only [keep] at kept
    split at kept
    · rename_i may
      cases kept
      exact ⟨checked b operation may, _, operation.run_runs b.now b.store, rfl⟩
    · cases kept
  | second operation =>
    cases kept
    exact rfl

def permitted (b : Books) : {β : Type} → Section β → Bool
  | _, .write id (.instances _) =>
    match b.store.services.get id with
    | some s => b.copied.all fun c => c.id ≠ id ∨ records s = records c
    | none => true
  | _, _ => true

theorem permitted_uncrossed (b : Books) {β : Type} (operation : Section β) (may : permitted b operation = true) :
    b.Uncrossed operation := by
  cases operation with
  | write id edit =>
    cases edit with
    | instances live =>
      intro s found c member named
      simp only [permitted, Option.mem_def.mp found, List.all_eq_true] at may
      have agreed := of_decide_eq_true (may c member)
      exact agreed.resolve_left fun other => other named
    | _ => trivial
  | _ => trivial

def runningOn (name : String) : ServiceInstance := ⟨"n1", name, none, "running", 0, false⟩

def sampleBooks : Books where
  store :=
    { services := [{ sampleService "web" with instances := [runningOn "web-1"] }], deleted := [], servicesJson := none,
      deletedJson := none }
  now := 1000
  ledger := [⟨"web", "c1", [("n1", "web-1")]⟩]
  copied := []

abbrev BookTurn := Turn Books (Joint Section Ask) (Option Nat) Unit

def adding : Pass Unit := (addInstance "web" (runningOn "web-2")).first

def addedBefore : List BookTurn := Turn.whole (some 0) adding 2 ++ [.start none reconcile, .advance none 10]

def addedMeanwhile : List BookTurn :=
  [.start none reconcile, .advance none 5] ++ Turn.whole (some 0) adding 2 ++ [.advance none 4]

theorem sampleBooks_balanced : sampleBooks.Balanced := rfl

theorem no_instance_lost_sample : ∃ b, (passSystem Books.Uncrossed).Reaches Books.Balanced b ∧
    b.ledger.map Account.records = [[("n1", "web-1"), ("n1", "web-2")]] ∧ b.Balanced := by
  obtain ⟨b, reached, passed⟩ := @conduct_reaches _ _ _ _ _ (passSystem Books.Uncrossed) (keep permitted) Books.Balanced _
    sampleBooks_balanced (keep_commits permitted_uncrossed) addedBefore
    (by simp [addedBefore, Turn.whole, Turn.Lawful, passSystem, adding, Beside.addInstance])
    (fun b => decide (b.ledger.map Account.records = [[("n1", "web-1"), ("n1", "web-2")]])) (by decide +kernel)
  exact ⟨b, reached, of_decide_eq_true passed, no_instance_lost reached⟩

/-- The pass puts back the instances it has copied, and the new one is gone. -/
theorem added_instance_lost : ∃ b, (passSystem fun _ _ _ => True).Reaches Books.Balanced b ∧
    b.ledger.map Account.records = [[("n1", "web-1"), ("n1", "web-2")]] ∧
    b.store.services.map records = [[("n1", "web-1")]] ∧ ¬b.Balanced := by
  obtain ⟨b, reached, passed⟩ := @conduct_reaches _ _ _ _ _ (passSystem fun _ _ _ => True) (keep fun _ _ _ => true)
    Books.Balanced _ sampleBooks_balanced (keep_commits fun _ _ _ _ => trivial) addedMeanwhile
    (by simp [addedMeanwhile, Turn.whole, Turn.Lawful, passSystem, adding, Beside.addInstance])
    (fun b => decide (b.ledger.map Account.records = [[("n1", "web-1"), ("n1", "web-2")]] ∧
      b.store.services.map records = [[("n1", "web-1")]])) (by decide +kernel)
  obtain ⟨booked, kept⟩ := of_decide_eq_true passed
  refine ⟨b, reached, booked, kept, fun balanced => ?_⟩
  have agreed : b.ledger.map Account.records = b.store.services.map records := by
    rw [← show b.store.services.map account = b.ledger from balanced, List.map_map]
    rfl
  rw [agreed, kept] at booked
  cases booked

end WolfRun
