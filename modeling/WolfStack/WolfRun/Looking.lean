import WolfStack.WolfRun.Placement

/-! What a pass makes of an instance when it could not look at the node. A node is looked at no more
than once in a pass, so what a look gives is the same for every instance on it. -/

namespace WolfRun
open Effects
open Cluster (Node nodeMatchesId)

/-- One pass. A look at a node gives nothing where its containers could not be listed; on this node
an empty list stands in for that. Anything may be answered to other requests. -/
structure Tick (σ : Type) where
  answer : {β : Type} → σ → Joint Section Ask β → β × σ
  here : Runtime → Option (List Container)
  there : String → Runtime → Option (List Container)
  installed : Runtime → Bool
  ours : ∀ s n runtime, (answer s (.second (.listLocal n runtime))).1 = (here runtime).getD []
  theirs : ∀ s n runtime, ((query (.urls n) >>= fetchRemote n runtime).drive answer s).1 = there n.id runtime
  present : ∀ s runtime, (answer s (.second (.runtimePresent runtime))).1 = installed runtime

structure Sight where
  nodes : List Node
  service : WolfRunService
  live : List ServiceInstance

def sightings : Lists → Services → Pass (List Sight)
  | _, [] => return []
  | lists, service :: rest => do
    let nodes ← query .nodes
    let (lists, live) ← observeAll nodes service.runtime lists service.instances
    settle nodes service live
    let later ← sightings lists rest
    return ⟨nodes, service, live⟩ :: later

section
variable {σ : Type} (tick : Tick σ) (sight : Sight)

def unlooked (i : ServiceInstance) : Bool :=
  match hostOf sight.nodes i with
  | some n => if n.isSelf then (tick.here sight.service.runtime).isNone else (tick.there n.id sight.service.runtime).isNone
  | none => false

def Sight.pairs : List (ServiceInstance × ServiceInstance) := sight.service.instances.zip sight.live

/-- The instances, where those that could not be looked for are as they were. -/
def asBefore : List ServiceInstance := sight.pairs.map fun (i, seen) => if unlooked tick sight i then i else seen

def wanted (service : WolfRunService) (live : List ServiceInstance) : Nat :=
  if existing live < service.replicas then needed service (existing live) else 0

def isBackend (i : ServiceInstance) : Bool := i.status = "running" && !i.standby && i.wolfnetIp.isSome

/-- Not to have looked makes no instance lost, no replacement wanted, and no backend dropped as lost. -/
structure Unharmed : Prop where
  kept : ∀ pair ∈ sight.pairs, unlooked tick sight pair.1 = true → pair.2.status = "lost" → pair.1.status = "lost"
  created : wanted sight.service sight.live ≤ wanted sight.service (asBefore tick sight)
  served : ∀ pair ∈ sight.pairs, unlooked tick sight pair.1 = true → isBackend pair.1 = true → pair.2.status ≠ "lost"

/-- An instance is on this node, which has the runtime but did not list its containers. -/
def UnlistedHere (i : ServiceInstance) : Prop :=
  ∃ n, hostOf sight.nodes i = some n ∧ n.online = true ∧ n.isSelf = true ∧ tick.here sight.service.runtime = none ∧
    (runtimeOf n sight.service.runtime || tick.installed sight.service.runtime) = true

end

variable {σ : Type} {tick : Tick σ} {lists : Lists} {nodes : List Node} {runtime : Runtime} {i seen : ServiceInstance} {n : Node}

structure Consistent (tick : Tick σ) (lists : Lists) : Prop where
  ours : ∀ runtime found, lists.ours runtime = some found → found = (tick.here runtime).getD []
  theirs : ∀ id runtime found, lists.remote id runtime = some found → found = tick.there id runtime

theorem Consistent.empty (tick : Tick σ) : Consistent tick .empty := ⟨fun _ _ => nofun, fun _ _ _ => nofun⟩

inductive Judged (tick : Tick σ) (nodes : List Node) (runtime : Runtime) (i : ServiceInstance) : ServiceInstance → Prop
  | foundHere {n : Node} {c : Container} {inWolfnet : String → Bool} {now : Nat} (host : hostOf nodes i = some n) (own : n.online = true ∧ n.isSelf = true)
      (listed : ((tick.here runtime).getD []).find? (fun c => c.name = i.containerName) = some c) :
      Judged tick nodes runtime i (localSeen inWolfnet now i c)
  | goneHere {n : Node} (host : hostOf nodes i = some n) (own : n.online = true ∧ n.isSelf = true)
      (available : (runtimeOf n runtime || tick.installed runtime) = true)
      (absent : ((tick.here runtime).getD []).find? (fun c => c.name = i.containerName) = none) : Judged tick nodes runtime i (lost i)
  | noRuntime {n : Node} (host : hostOf nodes i = some n) (own : n.online = true ∧ n.isSelf = true)
      (unavailable : (runtimeOf n runtime || tick.installed runtime) = false) : Judged tick nodes runtime i (offline i)
  | foundThere {n : Node} {c : Container} {found : List Container} {inWolfnet : String → Bool} {now : Nat} (host : hostOf nodes i = some n)
      (other : n.online = true ∧ n.isSelf = false)
      (fetched : tick.there n.id runtime = some found) (listed : found.find? (fun c => c.name = i.containerName) = some c) :
      Judged tick nodes runtime i (remoteSeen inWolfnet now i c)
  | goneThere {n : Node} {found : List Container} (host : hostOf nodes i = some n) (other : n.online = true ∧ n.isSelf = false)
      (fetched : tick.there n.id runtime = some found) (absent : found.find? (fun c => c.name = i.containerName) = none) :
      Judged tick nodes runtime i (lost i)
  | unreached {n : Node} (host : hostOf nodes i = some n) (other : n.online = true ∧ n.isSelf = false) (failed : tick.there n.id runtime = none) :
      Judged tick nodes runtime i (offline i)
  | away (absent : ∀ n, hostOf nodes i = some n → n.online = false) : Judged tick nodes runtime i (offline i)

theorem runtimeAvailable_drive (n : Node) (runtime : Runtime) (s : σ) :
    ((runtimeAvailable n runtime).drive tick.answer s).1 = (runtimeOf n runtime || tick.installed runtime) := by
  unfold runtimeAvailable
  cases runtimeOf n runtime with
  | true => rfl
  | false => exact tick.present s runtime

theorem listHere_drive (consistent : Consistent tick lists) (n : Node) (runtime : Runtime) (s : σ) :
    ((listHere lists n runtime).drive tick.answer s).1.2 = (tick.here runtime).getD [] ∧
      Consistent tick ((listHere lists n runtime).drive tick.answer s).1.1 := by
  unfold listHere
  cases cached : lists.ours runtime with
  | some found => exact ⟨consistent.ours runtime found cached, consistent⟩
  | none =>
    refine ⟨tick.ours s n runtime, ?_, consistent.theirs⟩
    intro other found same
    change Function.update lists.ours runtime (some (tick.answer s (.second (.listLocal n runtime))).1) other = some found at same
    by_cases this : other = runtime
    · rw [this, Function.update_self, tick.ours, Option.some.injEq] at same
      rw [this, same]
    · rw [Function.update_of_ne this] at same
      exact consistent.ours other found same

theorem listThere_drive (consistent : Consistent tick lists) (n : Node) (runtime : Runtime) (s : σ) :
    ((listThere lists n runtime).drive tick.answer s).1.2 = tick.there n.id runtime ∧
      Consistent tick ((listThere lists n runtime).drive tick.answer s).1.1 := by
  unfold listThere
  cases cached : lists.remote n.id runtime with
  | some found => exact ⟨consistent.theirs n.id runtime found cached, consistent⟩
  | none =>
    have fetched := tick.theirs s n runtime
    rw [Program.bind_eq, Program.drive_bind] at fetched
    simp only [Program.bind_eq, Program.drive_bind, Program.pure_eq, Program.drive_pure, fetched, true_and]
    refine ⟨consistent.ours, ?_⟩
    intro id other found same
    dsimp only at same
    by_cases there : id = n.id
    · rw [there, Function.update_self] at same
      by_cases this : other = runtime
      · rw [this, Function.update_self, Option.some.injEq] at same
        rw [there, this, same]
      · rw [Function.update_of_ne this] at same
        rw [there]
        exact consistent.theirs n.id other found same
    · rw [Function.update_of_ne there] at same
      exact consistent.theirs id other found same

theorem observe_drive (consistent : Consistent tick lists) (nodes : List Node) (runtime : Runtime) (i : ServiceInstance) (s : σ) :
    Judged tick nodes runtime i ((observe nodes lists runtime i).drive tick.answer s).1.2 ∧
      Consistent tick ((observe nodes lists runtime i).drive tick.answer s).1.1 := by
  unfold observe
  cases host : nodes.find? fun n => nodeMatchesId n i.nodeId with
  | none => exact ⟨.away fun _ found => (nomatch host.symm.trans found), consistent⟩
  | some n =>
    dsimp only
    split
    · rename_i own
      unfold observeLocal
      rw [Program.bind_eq, Program.drive_bind, runtimeAvailable_drive]
      split
      · rename_i available
        obtain ⟨listed, kept⟩ := listHere_drive consistent n runtime ((runtimeAvailable n runtime).drive tick.answer s).2
        rw [Program.bind_eq, Program.drive_bind]
        dsimp only
        rw [listed]
        cases found : ((tick.here runtime).getD []).find? fun c => c.name = i.containerName with
        | some c => exact ⟨.foundHere host own found, kept⟩
        | none => exact ⟨.goneHere host own available found, kept⟩
      · rename_i unavailable
        exact ⟨.noRuntime host own (Bool.eq_false_iff.mpr unavailable), consistent⟩
    · rename_i foreign
      split
      · rename_i online
        have other : n.online = true ∧ n.isSelf = false := ⟨online, Bool.eq_false_iff.mpr fun self => foreign ⟨online, self⟩⟩
        unfold observeRemote
        obtain ⟨fetched, kept⟩ := listThere_drive consistent n runtime s
        rw [Program.bind_eq, Program.drive_bind]
        dsimp only
        rw [fetched]
        cases had : tick.there n.id runtime with
        | none => exact ⟨.unreached host other had, kept⟩
        | some containers =>
          dsimp only
          cases found : containers.find? fun c => c.name = i.containerName with
          | some c => exact ⟨.foundThere host other had found, kept⟩
          | none => exact ⟨.goneThere host other had found, kept⟩
      · rename_i away
        refine ⟨.away fun m found => ?_, consistent⟩
        cases host.symm.trans found
        exact Bool.eq_false_iff.mpr away

theorem observeAll_drive (consistent : Consistent tick lists) (nodes : List Node) (runtime : Runtime) (instances : List ServiceInstance) (s : σ) :
    List.Forall₂ (Judged tick nodes runtime) instances ((observeAll nodes runtime lists instances).drive tick.answer s).1.2 ∧
      Consistent tick ((observeAll nodes runtime lists instances).drive tick.answer s).1.1 := by
  induction instances generalizing lists s with
  | nil => exact ⟨.nil, consistent⟩
  | cons i rest ih =>
    obtain ⟨seen, kept⟩ := observe_drive consistent nodes runtime i s
    obtain ⟨later, still⟩ := ih kept ((observe nodes lists runtime i).drive tick.answer s).2
    rw [observeAll, Program.bind_eq, Program.drive_bind]
    dsimp only
    rw [Program.bind_eq, Program.drive_bind]
    exact ⟨.cons seen later, still⟩

theorem sightings_seen (consistent : Consistent tick lists) (services : Services) (s : σ) :
    ∀ sight ∈ ((sightings lists services).drive tick.answer s).1,
      List.Forall₂ (Judged tick sight.nodes sight.service.runtime) sight.service.instances sight.live := by
  induction services generalizing lists s with
  | nil =>
    intro sight member
    cases member
  | cons service rest ih =>
    rw [sightings, Program.bind_eq, Program.drive_bind]
    obtain ⟨seen, kept⟩ := observeAll_drive consistent ((query .nodes).drive tick.answer s).1 service.runtime service.instances
      ((query .nodes).drive tick.answer s).2
    rw [Program.bind_eq, Program.drive_bind]
    dsimp only
    rw [Program.bind_eq, Program.drive_bind, Program.bind_eq, Program.drive_bind]
    intro sight member
    rcases List.mem_cons.mp member with rfl | later
    · exact seen
    · exact ih kept _ sight later

/-- To take down what a pass sees changes nothing about the pass: whatever is answered, it leads to the same. -/
theorem sightings_reconcileAll {σ : Type} {answer : {β : Type} → σ → Joint Section Ask β → β × σ} (lists : Lists)
    (services : Services) (s : σ) : ((sightings lists services).drive answer s).2 = ((reconcileAll lists services).drive answer s).2 := by
  induction services generalizing lists s with
  | nil => rfl
  | cons service rest ih =>
    rw [sightings, reconcileAll]
    simp only [Program.bind_eq, Program.drive_bind]
    exact ih _ _

theorem Judged.standby (seen' : Judged tick nodes runtime i seen) : seen.standby = i.standby := by
  cases seen' with
  | foundHere | foundThere => rfl
  | goneHere | goneThere =>
    unfold lost unlessPending
    split <;> rfl
  | noRuntime | unreached | away =>
    unfold offline unlessPending
    split <;> rfl

theorem offline_present (i : ServiceInstance) : (offline i).status ≠ "lost" := by
  unfold offline unlessPending
  split
  · rename_i pending
    rw [pending]
    decide
  · exact of_decide_eq_true rfl

theorem lost_status : (lost i).status = "lost" ↔ i.status ≠ "pending" := by
  unfold lost unlessPending
  split
  · rename_i pending
    simp [pending]
  · rename_i other
    exact iff_of_true rfl other

section
variable {sight : Sight}

theorem Judged.unlisted (seen' : Judged tick sight.nodes sight.service.runtime i seen) (unlisted : UnlistedHere tick sight i) : seen = lost i := by
  obtain ⟨n, host, online, self, failed, available⟩ := unlisted
  have one : ∀ {m : Node}, hostOf sight.nodes i = some m → m = n := fun found => Option.some.inj (found.symm.trans host)
  cases seen' with
  | foundHere _ _ listed =>
    rw [failed] at listed
    cases listed
  | goneHere | goneThere => rfl
  | noRuntime host' _ unavailable =>
    rw [one host', available] at unavailable
    cases unavailable
  | foundThere host' other | unreached host' other =>
    rw [one host', self] at other
    exact nomatch other.2
  | away absent => exact nomatch (absent n host).symm.trans online

theorem Judged.unlooked (seen' : Judged tick sight.nodes sight.service.runtime i seen) (skipped : unlooked tick sight i = true)
    (gone : seen.status = "lost") : UnlistedHere tick sight i := by
  have looked : ∀ {n : Node}, hostOf sight.nodes i = some n →
      (if n.isSelf then (tick.here sight.service.runtime).isNone else (tick.there n.id sight.service.runtime).isNone) = true := by
    intro n host
    rwa [WolfRun.unlooked, host] at skipped
  cases seen' with
  | foundHere host own listed =>
    have failed := looked host
    rw [if_pos own.2, Option.isNone_iff_eq_none] at failed
    rw [failed] at listed
    cases listed
  | goneHere host own available absent =>
    have failed := looked host
    rw [if_pos own.2, Option.isNone_iff_eq_none] at failed
    exact ⟨_, host, own.1, own.2, failed, available⟩
  | foundThere host other fetched | goneThere host other fetched =>
    have failed := looked host
    rw [if_neg (Bool.eq_false_iff.mp other.2), fetched] at failed
    cases failed
  | noRuntime | unreached | away => exact absurd gone (offline_present i)

theorem asBefore_existing (kept : ∀ pair ∈ sight.pairs, unlooked tick sight pair.1 = true → pair.2.status = "lost" → pair.1.status = "lost")
    (seen' : List.Forall₂ (Judged tick sight.nodes sight.service.runtime) sight.service.instances sight.live) :
    existing (asBefore tick sight) ≤ existing sight.live := by
  obtain ⟨length, each⟩ := List.forall₂_iff_zip.mp seen'
  have after : sight.pairs.map Prod.snd = sight.live := List.map_snd_zip (Nat.le_of_eq length.symm)
  rw [existing, existing, ← after, ← List.countP_eq_length_filter, ← List.countP_eq_length_filter, asBefore, List.countP_map, List.countP_map]
  apply List.countP_mono_left
  rintro ⟨i, seen⟩ member counts
  dsimp only [Function.comp_apply] at counts ⊢
  split at counts
  · rename_i skipped
    have same : seen.standby = i.standby := (each member).standby
    simp only [countsAsExisting, same, Bool.and_eq_true, decide_eq_true_eq] at counts ⊢
    exact ⟨counts.1, fun gone => counts.2 (kept ⟨i, seen⟩ member skipped gone)⟩
  · exact counts

theorem wanted_antitone {service : WolfRunService} {before after : List ServiceInstance} (more : existing before ≤ existing after) :
    wanted service after ≤ wanted service before := by
  unfold wanted needed
  split <;> split <;> omega

theorem unharmed_of_kept (seen' : List.Forall₂ (Judged tick sight.nodes sight.service.runtime) sight.service.instances sight.live)
    (kept : ∀ pair ∈ sight.pairs, unlooked tick sight pair.1 = true → pair.2.status = "lost" → pair.1.status = "lost") : Unharmed tick sight := by
  refine ⟨kept, wanted_antitone (asBefore_existing kept seen'), ?_⟩
  intro pair member skipped backend gone
  have before := kept pair member skipped gone
  simp [isBackend, before] at backend

theorem unlooked_of_unlisted (unlisted : UnlistedHere tick sight i) : unlooked tick sight i = true := by
  obtain ⟨n, host, -, self, failed, -⟩ := unlisted
  rw [unlooked, host]
  dsimp only
  rw [if_pos self, failed]
  rfl

theorem unharmed_sight (seen' : List.Forall₂ (Judged tick sight.nodes sight.service.runtime) sight.service.instances sight.live) :
    Unharmed tick sight ↔ ∀ i ∈ sight.service.instances, UnlistedHere tick sight i → i.status = "pending" ∨ i.status = "lost" := by
  obtain ⟨length, each⟩ := List.forall₂_iff_zip.mp seen'
  constructor
  · intro unharmed i member unlisted
    have before : sight.pairs.map Prod.fst = sight.service.instances := List.map_fst_zip (Nat.le_of_eq length)
    rw [← before, List.mem_map] at member
    obtain ⟨pair, inside, rfl⟩ := member
    by_cases pending : pair.1.status = "pending"
    · exact .inl pending
    · have gone : pair.2.status = "lost" := by
        rw [(each inside).unlisted unlisted]
        exact lost_status.mpr pending
      exact .inr (unharmed.kept pair inside (unlooked_of_unlisted unlisted) gone)
  · intro settled
    apply unharmed_of_kept seen'
    intro pair inside skipped gone
    have unlisted := (each inside).unlooked skipped gone
    refine (settled pair.1 (List.of_mem_zip inside).1 unlisted).resolve_left fun pending => ?_
    rw [(each inside).unlisted unlisted] at gone
    exact lost_status.mp gone pending

end

/-- Not to have looked does no harm exactly where every instance on this node, if this node has the
runtime and did not list its containers, is pending or was lost before. -/
theorem unharmed_iff (tick : Tick σ) (services : Services) (s : σ) :
    (∀ sight ∈ ((sightings .empty services).drive tick.answer s).1, Unharmed tick sight) ↔
      ∀ sight ∈ ((sightings .empty services).drive tick.answer s).1, ∀ i ∈ sight.service.instances,
        UnlistedHere tick sight i → i.status = "pending" ∨ i.status = "lost" :=
  forall₂_congr fun sight member => unharmed_sight (sightings_seen (.empty tick) services s sight member)

/-- Answers of a node that knows itself only. -/
def alone (n : Node) : {β : Type} → Ask β → β
  | _, .nodes => [n]
  | _, operation => atTime 1000 operation

def unanswered : Tick Store where
  answer := WolfRun.answer (alone { Cluster.sampleNode "n1" "10.0.0.1" with isSelf := true }) 1000
  here _ := none
  there _ _ := none
  installed _ := false
  ours _ _ _ := rfl
  theirs _ _ _ := rfl
  present _ _ := rfl

def webOn (id : String) : WolfRunService := { sampleService "web" with instances := [⟨id, "web-wolfrun-1", some "10.10.0.5", "running", 940, false⟩] }

/-- The instance runs on, and is taken for lost. -/
theorem unharmed_unanswered :
    ¬∀ sight ∈ ((sightings .empty [webOn "n1"]).drive unanswered.answer (storing (webOn "n1").instances)).1, Unharmed unanswered sight := by
  intro unharmed
  have first : ((sightings .empty [webOn "n1"]).drive unanswered.answer (storing (webOn "n1").instances)).1.all (fun sight =>
      sight.pairs.all fun pair => !unlooked unanswered sight pair.1 || pair.2.status ≠ "lost" || pair.1.status = "lost") = true := by
    rw [List.all_eq_true]
    intro sight member
    rw [List.all_eq_true]
    intro pair inside
    have kept := (unharmed sight member).kept pair inside
    by_cases skipped : unlooked unanswered sight pair.1 = true <;> by_cases gone : pair.2.status = "lost" <;> simp_all
  exact absurd first (by decide +kernel)

end WolfRun
