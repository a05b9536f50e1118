import WolfStack.Effects.Schedule
import WolfStack.WolfRun.Creation
import WolfStack.WolfRun.Instances

/-! How many containers the reconciler has made for a service, over whole runs: what a pass
finds out about the instances on record covers every container that it has made. -/

namespace WolfRun
open Effects
open Effects.Program (send)

variable {svc : WolfRunService}

/-! ### Looking the instances up -/

section
variable (nodes : List Cluster.Node) (copied : WolfRunService)

def Fair (w : Fleet) (node : Cluster.Node) (found : List Container) : Prop :=
  ∀ r ∈ actives copied, Cluster.nodeMatchesId node r.1 = true → r.2 ∈ w.made → Shows found r.2

/-- The copy is still good for the containers that have been made, and so are the lists. -/
structure Watching (lists : Lists) (w : Fleet) : Prop where
  recorded : ∀ r ∈ actives copied, r.2 ∈ w.made → r ∈ w.active
  counted : w.made.Subperm ((actives copied).map Prod.snd)
  ours : ∀ runtime found, lists.ours runtime = some found → ∀ n ∈ nodes, n.isSelf = true → Fair copied w n found
  remote : ∀ n ∈ nodes, ∀ runtime found, lists.remote n.id runtime = some (some found) → Fair copied w n found

structure Seen (inst seen : ServiceInstance) (w : Fleet) : Prop where
  same : record seen = record inst
  standby : seen.standby = inst.standby
  gone : seen.status = "lost" → inst.standby = false → inst.containerName ∉ w.made

variable {nodes copied}

theorem Fair.lasting (node : Cluster.Node) (found : List Container) : Lasting fun w => Fair copied w node found :=
  fun _ _ aside fair r member here exists_ => fair r member here (aside.fewer.subset exists_)

theorem Watching.lasting (lists : Lists) : Lasting (Watching nodes copied lists) := by
  intro before after aside watching
  refine ⟨?_, aside.fewer.subperm.trans watching.counted, ?_, ?_⟩
  · intro r member exists_
    exact aside.recorded r (watching.recorded r member (aside.fewer.subset exists_)) exists_
  · exact fun runtime found known n member self => Fair.lasting n found _ _ aside (watching.ours runtime found known n member self)
  · exact fun n member runtime found known => Fair.lasting n found _ _ aside (watching.remote n member runtime found known)

theorem Seen.lasting (inst seen : ServiceInstance) : Lasting (Seen inst seen) :=
  fun _ _ aside was => ⟨was.same, was.standby, fun lost active exists_ => was.gone lost active (aside.fewer.subset exists_)⟩

theorem Lasting.and {first second : Fleet → Prop} (left : Lasting first) (right : Lasting second) :
    Lasting fun w => first w ∧ second w :=
  fun before after aside holds => ⟨left before after aside holds.1, right before after aside holds.2⟩

theorem Watching.fair {lists : Lists} {w : Fleet} (watching : Watching nodes copied lists w) {node : Cluster.Node}
    {found : List Container} (complete : w.Complete node found) : Fair copied w node found :=
  fun r member here exists_ => complete r (watching.recorded r member exists_) here exists_

theorem offline_seen (inst : ServiceInstance) (w : Fleet) : Seen inst (offline inst) w := by
  refine ⟨offline_record inst, ?_, ?_⟩
  · unfold offline unlessPending
    split <;> rfl
  · unfold offline unlessPending
    intro lost
    split at lost
    · rename_i pending
      rw [pending] at lost
      exact absurd lost (by decide)
    · exact absurd (show "offline" = "lost" from lost) (by decide)

theorem lost_seen {inst : ServiceInstance} {w : Fleet} (gone : inst.standby = false → inst.containerName ∉ w.made) :
    Seen inst (lost inst) w := by
  refine ⟨lost_record inst, ?_, fun _ => gone⟩
  unfold lost unlessPending
  split <;> rfl

theorem listed_seen {w : Fleet} {node : Cluster.Node} {found : List Container} (fair : Fair copied w node found)
    {inst : ServiceInstance} (member : inst ∈ copied.instances) (here : Cluster.nodeMatchesId node inst.nodeId = true) :
    inst.standby = false → inst.containerName ∈ w.made → Shows found inst.containerName := by
  intro active exists_
  refine fair (record inst) ?_ here exists_
  exact List.mem_map_of_mem (List.mem_filter.mpr ⟨member, by simp [active]⟩)

theorem found_seen {w : Fleet} {node : Cluster.Node} {found : List Container} (fair : Fair copied w node found)
    {inst seen : ServiceInstance} (member : inst ∈ copied.instances) (here : Cluster.nodeMatchesId node inst.nodeId = true)
    {c : Container} (listed : (found.find? fun c => c.name = inst.containerName) = some c) (same : record seen = record inst)
    (standby : seen.standby = inst.standby) (status : seen.status = reported c) : Seen inst seen w := by
  refine ⟨same, standby, fun lost active exists_ => ?_⟩
  obtain ⟨shown, named, kept⟩ := listed_seen fair member here active exists_
  rw [listed] at named
  cases named
  exact kept (status ▸ lost)

theorem missing_seen {w : Fleet} {node : Cluster.Node} {found : List Container} (fair : Fair copied w node found)
    {inst : ServiceInstance} (member : inst ∈ copied.instances) (here : Cluster.nodeMatchesId node inst.nodeId = true)
    (missing : (found.find? fun c => c.name = inst.containerName) = none) : Seen inst (lost inst) w := by
  refine lost_seen fun active exists_ => ?_
  obtain ⟨shown, named, -⟩ := listed_seen fair member here active exists_
  rw [missing] at named
  cases named

abbrev Looks (inst : ServiceInstance) (lists : Lists) (program : Pass (Lists × ServiceInstance)) : Prop :=
  (fleetRules svc .reconciler).Triple (Watching nodes copied lists) program fun result w =>
    Watching nodes copied result.1 w ∧ Seen inst result.2 w

theorem seenTriple {inst seen : ServiceInstance} {lists : Lists} (was : ∀ w, Watching nodes copied lists w → Seen inst seen w) :
    @Looks svc nodes copied inst lists (.pure (lists, seen)) :=
  .pure _ (Watching.lasting lists).stable fun w _ watching => ⟨watching, was w watching⟩

theorem question_step {before after : Fleet} {β : Type} {operation : Ask β} {value : β} (makes : operation.makes = none)
    (law : (fleetSystem Fleet.Watched).commits .reconciler before (.second operation) value after) :
    operation.Answers value ∧ before.Watched .reconciler (.second operation) value before.made ∧ after = before := by
  obtain ⟨answers, made, same, watched, rfl⟩ := law
  simp only [Makes, makes] at same
  subst same
  exact ⟨answers, watched, rfl⟩

theorem Watching.listed {lists : Lists} {w : Fleet} (watching : Watching nodes copied lists w) (distinct : Distinct nodes)
    {node : Cluster.Node} (member : node ∈ nodes) (self : node.isSelf = true) {found : List Container}
    (fair : Fair copied w node found) (runtime : Runtime) :
    Watching nodes copied { lists with ours := Function.update lists.ours runtime (some found) } w := by
  refine ⟨watching.recorded, watching.counted, ?_, watching.remote⟩
  intro other known kept n present here
  by_cases same : other = runtime
  · subst other
    obtain rfl : found = known := by simpa using kept
    rw [distinct n present node member (.inr ⟨here, self⟩)]
    exact fair
  · exact watching.ours other known (by simpa [same] using kept) n present here

theorem Watching.fetched {lists : Lists} {w : Fleet} (watching : Watching nodes copied lists w) (distinct : Distinct nodes)
    {node : Cluster.Node} (member : node ∈ nodes) {answer : Option (List Container)}
    (fair : ∀ found, answer = some found → Fair copied w node found) (runtime : Runtime) :
    Watching nodes copied
      { lists with remote := Function.update lists.remote node.id (Function.update (lists.remote node.id) runtime (some answer)) }
      w := by
  refine ⟨watching.recorded, watching.counted, watching.ours, ?_⟩
  intro n present other known kept
  by_cases named : n.id = node.id
  · obtain rfl := distinct n present node member (.inl named)
    by_cases same : other = runtime
    · subst other
      exact fair known (by simpa using kept)
    · exact watching.remote n present other known (by simpa [same] using kept)
  · exact watching.remote n present other known (by simpa [named] using kept)

theorem listHereTriple (distinct : Distinct nodes) (lists : Lists) {node : Cluster.Node} (member : node ∈ nodes)
    (self : node.isSelf = true) (runtime : Runtime) :
    (fleetRules svc .reconciler).Triple (Watching nodes copied lists) (listHere lists node runtime) fun result w =>
      Watching nodes copied result.1 w ∧ Fair copied w node result.2 := by
  unfold listHere
  split
  · rename_i found known
    exact .pure _ (Watching.lasting lists).stable fun w _ watching =>
      ⟨watching, watching.ours runtime found known node member self⟩
  · refine Rules.Triple.leading (fun found w => Watching nodes copied lists w ∧ Fair copied w node found)
      (Watching.lasting lists).stable ?_ fun found => ?_
    · intro before found after within watching law
      obtain ⟨-, complete, rfl⟩ := question_step rfl law
      exact ⟨within, trivial, watching, watching.fair complete⟩
    · refine .pure _ ((Watching.lasting lists).and (Fair.lasting node found)).stable ?_
      exact fun w _ held => ⟨held.1.listed distinct member self held.2 runtime, held.2⟩

theorem fetchRemoteTriple (lists : Lists) (node : Cluster.Node) (runtime : Runtime) (urls : List String) :
    (fleetRules svc .reconciler).Triple (Watching nodes copied lists) (fetchRemote node runtime urls) fun answer w =>
      Watching nodes copied lists w ∧ ∀ found, answer = some found → Fair copied w node found := by
  have still : Lasting (Watching nodes copied lists) := Watching.lasting lists
  induction urls with
  | nil => exact .pure none still.stable fun _ _ watching => ⟨watching, fun _ none_ => by cases none_⟩
  | cons url rest ih =>
    refine Rules.Triple.leading (fun listing w => Watching nodes copied lists w ∧
      ∀ found, listing = Listing.containers found → Fair copied w node found) still.stable ?_ fun listing => ?_
    · intro before listing after within watching law
      obtain ⟨-, complete, rfl⟩ := question_step rfl law
      refine ⟨within, trivial, watching, ?_⟩
      rintro found rfl
      exact watching.fair complete
    · cases listing with
      | containers found =>
        refine .pure _ (still.and ?_).stable fun w _ held => ⟨held.1, ?_⟩
        · exact fun before after aside fair other same => Fair.lasting node other before after aside (fair other same)
        · rintro other same
          cases same
          exact held.2 found rfl
      | refused | garbled =>
        refine .given (Watching nodes copied lists) ?_ fun w _ held => held.1
        exact .pure none still.stable fun _ _ watching => ⟨watching, fun _ none_ => by cases none_⟩
      | unreachable => exact .given _ ih fun w _ held => held.1

theorem listThereTriple (distinct : Distinct nodes) (lists : Lists) {node : Cluster.Node} (member : node ∈ nodes)
    (runtime : Runtime) :
    (fleetRules svc .reconciler).Triple (Watching nodes copied lists) (listThere lists node runtime) fun result w =>
      Watching nodes copied result.1 w ∧ ∀ found, result.2 = some found → Fair copied w node found := by
  have still : Lasting (Watching nodes copied lists) := Watching.lasting lists
  unfold listThere
  split
  · rename_i answer known
    refine .pure _ still.stable fun w _ watching => ⟨watching, ?_⟩
    rintro found rfl
    exact watching.remote node member runtime found known
  · refine Rules.Triple.bind (queryTriple still trivial) fun urls => ?_
    refine Rules.Triple.bind (fetchRemoteTriple lists node runtime urls) fun answer => ?_
    refine .pure _ (still.and ?_).stable fun w _ held => ⟨held.1.fetched distinct member held.2 runtime, held.2⟩
    exact fun before after aside fair other same => Fair.lasting node other before after aside (fair other same)

theorem observeLocalTriple (distinct : Distinct nodes) (lists : Lists) {node : Cluster.Node} (member : node ∈ nodes)
    (self : node.isSelf = true) (runtime : Runtime) {inst : ServiceInstance} (present : inst ∈ copied.instances)
    (here : Cluster.nodeMatchesId node inst.nodeId = true) :
    @Looks svc nodes copied inst lists (observeLocal lists node runtime inst) := by
  have available : Keeps Tame (runtimeAvailable node runtime) := by
    unfold runtimeAvailable
    split
    · trivial
    · exact query_keeps trivial
  refine Rules.Triple.bind (tameTriple (Watching.lasting lists) available) fun present_ => ?_
  cases present_ with
  | false => exact seenTriple fun w _ => offline_seen inst w
  | true =>
    refine Rules.Triple.bind (listHereTriple distinct lists member self runtime) fun (lists, containers) => ?_
    have still : Lasting fun w => Watching nodes copied lists w ∧ Fair copied w node containers :=
      (Watching.lasting lists).and (Fair.lasting node containers)
    dsimp only
    split
    · rename_i c found
      refine Rules.Triple.bind (queryTriple still trivial) fun inWolfnet => ?_
      refine Rules.Triple.bind (queryTriple still trivial) fun now => ?_
      exact .pure _ still.stable fun w _ held => ⟨held.1, found_seen held.2 present here found rfl rfl rfl⟩
    · rename_i missing
      exact .pure _ still.stable fun w _ held => ⟨held.1, missing_seen held.2 present here missing⟩

theorem observeRemoteTriple (distinct : Distinct nodes) (lists : Lists) {node : Cluster.Node} (member : node ∈ nodes)
    (runtime : Runtime) {inst : ServiceInstance} (present : inst ∈ copied.instances)
    (here : Cluster.nodeMatchesId node inst.nodeId = true) :
    @Looks svc nodes copied inst lists (observeRemote lists node runtime inst) := by
  refine Rules.Triple.bind (listThereTriple distinct lists member runtime) fun (lists, listing) => ?_
  cases listing with
  | none => exact .given _ (seenTriple fun w _ => offline_seen inst w) fun w _ held => held.1
  | some containers =>
    have still : Lasting fun w => Watching nodes copied lists w ∧ Fair copied w node containers :=
      (Watching.lasting lists).and (Fair.lasting node containers)
    refine .given (fun w => Watching nodes copied lists w ∧ Fair copied w node containers) ?_
      fun w _ held => ⟨held.1, held.2 containers rfl⟩
    dsimp only
    split
    · rename_i c found
      refine Rules.Triple.bind (queryTriple still trivial) fun inWolfnet => ?_
      refine Rules.Triple.bind (queryTriple still trivial) fun now => ?_
      exact .pure _ still.stable fun w _ held => ⟨held.1, found_seen held.2 present here found rfl rfl rfl⟩
    · rename_i missing
      exact .pure _ still.stable fun w _ held => ⟨held.1, missing_seen held.2 present here missing⟩

theorem observeTriple (distinct : Distinct nodes) (lists : Lists) (runtime : Runtime) {inst : ServiceInstance}
    (present : inst ∈ copied.instances) : @Looks svc nodes copied inst lists (observe nodes lists runtime inst) := by
  unfold observe
  split
  · rename_i node found
    have member := List.mem_of_find?_eq_some found
    have here : Cluster.nodeMatchesId node inst.nodeId = true := by simpa using List.find?_some found
    split
    · rename_i up
      exact observeLocalTriple distinct lists member up.2 runtime present here
    · split
      · exact observeRemoteTriple distinct lists member runtime present here
      · exact seenTriple fun w _ => offline_seen inst w
  · exact seenTriple fun w _ => offline_seen inst w

theorem observeAllTriple (distinct : Distinct nodes) (runtime : Runtime) (lists : Lists) (instances : List ServiceInstance)
    (present : ∀ i ∈ instances, i ∈ copied.instances) :
    (fleetRules svc .reconciler).Triple (Watching nodes copied lists) (observeAll nodes runtime lists instances)
      fun result w => Watching nodes copied result.1 w ∧ List.Forall₂ (fun inst seen => Seen inst seen w) instances result.2 := by
  induction instances generalizing lists with
  | nil => exact .pure _ (Watching.lasting lists).stable fun w _ watching => ⟨watching, .nil⟩
  | cons inst rest ih =>
    refine Rules.Triple.bind (observeTriple distinct lists runtime (present inst List.mem_cons_self)) fun (lists, seen) => ?_
    have others := ih lists fun i member => present i (List.mem_cons_of_mem _ member)
    have framed := others.framed (observeAll_sees nodes runtime lists rest) (Seen.lasting inst seen).stable ?_
    · refine Rules.Triple.bind framed fun (lists, live) => ?_
      refine .pure _ ?_ fun w _ held => ⟨held.1.1, .cons held.2 held.1.2⟩
      apply Lasting.stable
      apply Lasting.and
      · refine (Watching.lasting lists).and fun before after aside all => all.imp fun i s was => ?_
        exact Seen.lasting i s before after aside was
      · exact Seen.lasting inst seen
    · intro before β operation value after within was tame law
      exact Seen.lasting inst seen before after (spare_step within (tame_spare tame) (.inr tame) law).2 was

theorem live_counted {w : Fleet} {instances live : List ServiceInstance}
    (all : List.Forall₂ (fun inst seen => Seen inst seen w) instances live)
    (counted : w.made.Subperm (((instances.filter fun i => i.standby = false).map record).map Prod.snd)) :
    w.made.Subperm ((live.filter countsAsExisting).map ServiceInstance.containerName) := by
  have kept : ((((instances.filter fun i => i.standby = false).map record).map Prod.snd).filter fun name => name ∈ w.made).Sublist
      ((live.filter countsAsExisting).map ServiceInstance.containerName) := by
    clear counted
    induction all with
    | nil => exact .refl _
    | @cons inst seen rest live was others ih =>
      have named : inst.containerName = seen.containerName := (congrArg Prod.snd was.same).symm
      by_cases active : inst.standby = false
      · by_cases exists_ : inst.containerName ∈ w.made
        · have counts : countsAsExisting seen = true := by
            have status : seen.status ≠ "lost" := fun lost => was.gone lost active exists_
            simp [countsAsExisting, was.standby, active, status]
          simpa [active, counts, record, named, named ▸ exists_] using ih
        · have dropped := ih.trans (((List.sublist_cons_self seen live).filter countsAsExisting).map ServiceInstance.containerName)
          simpa [active, record, exists_] using dropped
      · have dropped := ih.trans (((List.sublist_cons_self seen live).filter countsAsExisting).map ServiceInstance.containerName)
        simpa [active] using dropped
  have all_made : ∀ name ∈ w.made, decide (name ∈ w.made) = true := fun name member => decide_eq_true member
  have filtered := counted.filter fun name => decide (name ∈ w.made)
  rw [List.filter_eq_self.mpr all_made] at filtered
  exact filtered.trans kept.subperm

end

structure Observed (live : List ServiceInstance) (w : Fleet) : Prop where
  counted : w.made.Subperm ((live.filter countsAsExisting).map ServiceInstance.containerName)

theorem Observed.lasting (live : List ServiceInstance) : Lasting (Observed live) :=
  fun _ _ aside observed => ⟨aside.fewer.subperm.trans observed.counted⟩

/-- Between passes every container is on record. -/
structure Settled (w : Fleet) : Prop where
  counted : w.made.Subperm (w.active.map Prod.snd)

theorem Settled.lasting : Lasting Settled := fun _ _ aside settled => ⟨aside.counted [] settled.counted⟩

theorem Held.settled {count : Nat} {w : Fleet} (held : Held count [] w) : Settled w := ⟨held.counted⟩

theorem putBackTriple {service : WolfRunService} (named : service.id = svc.id) (live : List ServiceInstance) :
    (fleetRules svc .reconciler).Triple (Observed live) (updateInstances service.id live).first
      fun _ => Held (existing live) [] := by
  refine Rules.Triple.leading (fun _ => Held (existing live) []) (Observed.lasting live).stable ?_ fun _ => ?_
  · rintro before value after within observed ⟨-, store, ran, rfl⟩
    rw [ran.means.2]
    refine ⟨within.write trivial, trivial, ?_, ?_⟩
    · have few := observed.counted.length_le
      rwa [List.length_map] at few
    · obtain ⟨s, alone, same, -⟩ := within.alone
      simp only [Fleet.active, alone, modify_alone rfl, if_pos (same.trans named.symm), List.flatMap_cons, List.flatMap_nil,
        List.append_nil, Edit.apply, withInstances, actives, List.map_map, List.nil_append]
      refine observed.counted.trans (List.Sublist.subperm ?_)
      refine List.Sublist.map _ (List.monotone_filter_right live ?_)
      intro i counts
      simp only [countsAsExisting, Bool.and_eq_true, Bool.not_eq_true'] at counts
      exact decide_eq_true counts.1
  · exact tameTriple (Held.lasting (existing live) []) ⟨trivial, fun _ => trivial⟩

theorem settleTriple {service : WolfRunService} (named : service.id = svc.id) (replicas : service.replicas = svc.replicas)
    (most : service.maxReplicas = svc.maxReplicas) (nodes : List Cluster.Node) (live : List ServiceInstance) :
    (fleetRules svc .reconciler).Triple (Observed live) (settle nodes service live) fun _ => Settled := by
  have up : (fleetRules svc .reconciler).Triple (Held (existing live) []) (scaleUp service live) fun _ => Settled := by
    unfold scaleUp
    split
    · have room : needed service (existing live) = 0 ∨ existing live + needed service (existing live) ≤ ceiling svc := by
        have same : ceiling service = ceiling svc := by rw [ceiling, ceiling, replicas, most]
        rw [← same, needed]
        omega
      exact (createManyTriple named live _ room).weaken_post fun _ _ _ held => held.settled
    · exact .pure () (Held.lasting (existing live) []).stable fun _ _ held => held.settled
  have down : Keeps Tame (scaleDown service live) := by
    unfold scaleDown
    split
    · exact removeInstances_tame ..
    · trivial
  have standbys : Keeps Tame (if service.failover then pure () else dropStandbys nodes service (live.filter ServiceInstance.standby)) := by
    split
    · trivial
    · exact dropStandbys_tame ..
  refine Rules.Triple.bind (putBackTriple named live) fun _ => ?_
  refine Rules.Triple.bind up fun _ => ?_
  refine Rules.Triple.bind (tameTriple Settled.lasting down) fun _ => ?_
  refine Rules.Triple.bind (tameTriple Settled.lasting (watchAll_tame ..)) fun _ => ?_
  refine Rules.Triple.bind (queryTriple Settled.lasting trivial) fun now => ?_
  refine Rules.Triple.bind (tameTriple Settled.lasting (removeInstances_tame ..)) fun _ => ?_
  exact tameTriple Settled.lasting standbys

theorem Watching.fresh {nodes : List Cluster.Node} {s : WolfRunService} {w : Fleet} (alone : w.store.services = [s])
    (settled : Settled w) : Watching nodes s .empty w := by
  have active : w.active = actives s := by simp [Fleet.active, alone]
  refine ⟨?_, active ▸ settled.counted, ?_, ?_⟩
  · exact fun r member _ => active ▸ member
  · exact fun _ _ known => by cases known
  · exact fun _ _ _ _ known => by cases known

structure Copy (svc : WolfRunService) (services : Services) (w : Fleet) : Prop where
  settled : Settled w
  one : services = [] ∨ ∃ s, services = [s] ∧ s.id = svc.id ∧ s.replicas = svc.replicas ∧ s.maxReplicas = svc.maxReplicas ∧
    ∀ nodes, Watching nodes s .empty w

theorem Copy.lasting (services : Services) : Lasting (Copy svc services) := by
  intro before after aside copy
  refine ⟨Settled.lasting _ _ aside copy.settled, copy.one.imp id ?_⟩
  rintro ⟨s, same, named, replicas, most, watching⟩
  exact ⟨s, same, named, replicas, most, fun nodes => Watching.lasting .empty _ _ aside (watching nodes)⟩

theorem copied_of_list {w : Fleet} (within : w.Within svc) (settled : Settled w) (cluster : Option String) :
    Copy svc (w.store.services.listed cluster) w := by
  obtain ⟨s, alone, named, replicas, most⟩ := within.alone
  have whole : Copy svc [s] w := ⟨settled, .inr ⟨s, rfl, named, replicas, most, fun _ => .fresh alone settled⟩⟩
  rw [alone]
  cases cluster with
  | none => exact whole
  | some cluster =>
    simp only [Services.listed, Services.ofCluster, List.filter_cons, List.filter_nil]
    split
    · exact whole
    · exact ⟨settled, .inl rfl⟩

theorem oneTriple {s : WolfRunService} (named : s.id = svc.id) (replicas : s.replicas = svc.replicas)
    (most : s.maxReplicas = svc.maxReplicas) :
    (fleetRules svc .reconciler).Triple (fun w => ∀ nodes, Watching nodes s .empty w) (reconcileAll .empty [s])
      fun _ => Settled := by
  have still : Lasting fun w => ∀ nodes, Watching nodes s .empty w :=
    fun _ _ aside watching nodes => Watching.lasting .empty _ _ aside (watching nodes)
  refine Rules.Triple.leading (fun nodes w => Distinct nodes ∧ Watching nodes s .empty w) still.stable ?_ fun nodes => ?_
  · intro before nodes after within watching law
    obtain ⟨distinct, -, rfl⟩ := question_step rfl law
    exact ⟨within, trivial, distinct, watching nodes⟩
  · rintro state within ⟨distinct, watching⟩
    refine Rules.Triple.bind (observeAllTriple distinct s.runtime .empty s.instances fun _ member => member) ?_ state within
      watching
    intro (lists, live)
    refine .given (Observed live) ?_ fun w _ held => ⟨live_counted held.2 held.1.counted⟩
    refine Rules.Triple.bind (settleTriple named replicas most nodes live) fun _ => ?_
    exact .pure () Settled.lasting.stable fun _ _ settled => settled

theorem reconcileTriple : (fleetRules svc .reconciler).Triple Settled reconcile fun _ => Settled := by
  refine Rules.Triple.bind (queryTriple Settled.lasting trivial) fun nodes => ?_
  refine Rules.Triple.leading (fun services => Copy svc services) Settled.lasting.stable ?_ fun services => ?_
  · rintro before services after within settled ⟨-, store, ran, rfl⟩
    obtain ⟨rfl, rfl⟩ := ran.means
    exact ⟨within, trivial, copied_of_list within settled _⟩
  · dsimp only [Program.pure_bind]
    split
    · refine .given Settled ?_ fun w _ copy => copy.settled
      exact queryTriple Settled.lasting trivial
    · rename_i some_
      refine Rules.Triple.bind (queryTriple (Copy.lasting services) trivial) fun _ => ?_
      rintro state within copy
      obtain none_ | ⟨s, rfl, named, replicas, most, watching⟩ := copy.one
      · exact absurd none_ some_
      · exact oneTriple named replicas most state within watching

theorem standbyTriple {program : Pass Unit} (spare : Keeps Spare program) :
    (fleetRules svc .failover).Triple (fun _ => True) program fun _ _ => True := by
  refine (Rules.Triple.yields spare (fun _ _ _ _ _ _ => trivial) ?_).weaken_post fun _ _ _ _ => trivial
  intro before β operation value after within _ kind law
  obtain ⟨still, aside⟩ := spare_step within kind (.inl rfl) law
  exact ⟨still, aside, trivial⟩

structure Fleet.Begins (svc : WolfRunService) (w : Fleet) : Prop where
  services : w.store.services = [svc]
  bounded : w.made.length ≤ ceiling svc
  recorded : w.made.Subperm ((actives svc).map Prod.snd)

theorem replicas_within_ceiling (svc : WolfRunService) {w : Fleet} (reached : (fleetSystem Fleet.Watched).Reaches (Fleet.Begins svc) w) :
    w.made.length ≤ max svc.maxReplicas svc.replicas := by
  let idle : Role → Fleet → Prop := fun role w => role = .reconciler → Settled w
  have sound : (fleetSystem Fleet.Watched).Sound (Fleet.Begins svc) (Fleet.Within svc) rolePromise idle := by
    constructor
    · intro w begins
      refine ⟨⟨⟨svc, begins.services, rfl, rfl, rfl⟩, begins.bounded⟩, fun _ _ => ⟨?_⟩⟩
      simpa [Fleet.active, begins.services] using begins.recorded
    · rintro before after within ⟨secs, made, fewer, rfl⟩
      refine ⟨⟨within.alone, fewer.length_le.trans within.bounded⟩, fun role settled here => ?_⟩
      exact Settled.lasting _ _ (.of_moves fewer rfl) (settled here)
    · intro role other before after apart _ _ promise settled here
      cases other with
      | reconciler => exact absurd here.symm apart
      | failover => exact Settled.lasting _ _ promise (settled here)
    · intro role program body
      cases role with
      | reconciler =>
        obtain rfl := body
        exact (reconcileTriple.weaken fun w _ settled => settled rfl).weaken_post fun _ _ _ settled _ => settled
      | failover =>
        have spare : Keeps Spare program := by
          rcases body with rfl | rfl
          · exact checkFailover_spare
          · exact manageStandby_spare
        exact ((standbyTriple spare).weaken fun _ _ _ => trivial).weaken_post fun _ _ _ _ here => by cases here
    · exact fun _ _ _ stopped => stopped.elim
  exact (sound.reaches reached).bounded

def Fleet.serve (reply : Nat → {β : Type} → Ask β → β) (allowed : {β : Type} → Joint Section Ask β → Bool) (role : Role)
    (_ : Nat) {β : Type} (w : Fleet) : Joint Section Ask β → Option (Fleet × β)
  | .first operation =>
    if allowed (.first operation) = true then
      let ran := operation.run w.now w.store
      some ({ w with store := ran.1 }, ran.2)
    else none
  | .second operation =>
    if allowed (.second operation) = true then
      let made := match role, operation.makes with
        | .reconciler, some name => name :: w.made
        | _, _ => w.made
      some ({ w with made }, reply w.now operation)
    else none

theorem fleet_commits {reply : Nat → {β : Type} → Ask β → β} {allowed : {β : Type} → Joint Section Ask β → Bool}
    {permitted : Fleet → Role → {β : Type} → Joint Section Ask β → β → List String → Prop}
    (answers : ∀ now {β : Type} (operation : Ask β), operation.Answers (reply now operation))
    (section_ : ∀ w role {β : Type} (operation : Section β) value, allowed (.first operation) = true →
      permitted w role (.first operation) value w.made)
    (question : ∀ w role {β : Type} (operation : Ask β) made, allowed (.second operation) = true →
      permitted w role (.second operation) (reply w.now operation) made)
    (role : Role) (index : Nat) {β : Type} (w : Fleet) (operation : Joint Section Ask β) (after : Fleet) (value : β)
    (served : Fleet.serve reply allowed role index w operation = some (after, value)) :
    (fleetSystem permitted).commits role w operation value after := by
  cases operation with
  | first operation =>
    simp only [Fleet.serve] at served
    split at served
    · rename_i may
      cases served
      exact ⟨section_ w role operation _ may, _, operation.run_runs w.now w.store, rfl⟩
    · cases served
  | second operation =>
    simp only [Fleet.serve] at served
    split at served
    · rename_i may
      cases served
      refine ⟨answers w.now operation, _, ?_, question w role operation _ may, rfl⟩
      cases role with
      | failover => exact rfl
      | reconciler =>
        unfold Makes
        cases operation.makes with
        | some name => exact .inl rfl
        | none => rfl
    · cases served

def emptyFleet : Fleet where
  store := { services := [{ sampleService "web" with maxReplicas := 1 }], deleted := [], servicesJson := none, deletedJson := none }
  now := 1000
  made := []

theorem emptyFleet_begins : emptyFleet.Begins { sampleService "web" with maxReplicas := 1 } :=
  ⟨rfl, Nat.zero_le _, List.nil_subperm⟩

abbrev FleetTurn := Turn Fleet (Joint Section Ask) Role Unit

/-- Whatever makes a container is answered, and nothing is listed or let go of. -/
def calm : {β : Type} → Joint Section Ask β → Bool
  | _, .first (.write _ (.removeInstance _)) | _, .first (.write _ (.promote _ _)) => false
  | _, .second (.listLocal ..) | _, .second (.listRemote ..) | _, .second (.post _ _ (.clone ..)) => false
  | _, _ => true

def running (now : Nat) {β : Type} (operation : Ask β) : β := operation.answer now []

theorem running_answers (now : Nat) {β : Type} (operation : Ask β) : operation.Answers (running now operation) := by
  cases operation with
  | nodes =>
    intro a first b second _
    rw [List.mem_singleton.mp first, List.mem_singleton.mp second]
  | _ => trivial

theorem running_watched (w : Fleet) (role : Role) {β : Type} (operation : Ask β) (made : List String)
    (calmly : calm (.second operation) = true) : w.Watched role (.second operation) (running w.now operation) made := by
  cases operation with
  | listLocal | listRemote => cases calmly
  | post node url call =>
    cases call with
    | clone => cases calmly
    | _ => exact fun failed => absurd rfl failed
  | createLocal | cloneLocal => exact fun failed => absurd rfl failed
  | _ => exact fun failed => absurd trivial failed

def oneTick : List FleetTurn := [.start .reconciler reconcile, .advance .reconciler 20]

theorem replicas_within_ceiling_sample :
    ∃ w, (fleetSystem Fleet.Watched).Reaches (Fleet.Begins { sampleService "web" with maxReplicas := 1 }) w ∧
      w.made.length = 1 ∧ w.made.length ≤ 1 := by
  obtain ⟨w, reached, passed⟩ := @conduct_reaches _ _ _ _ _ (fleetSystem Fleet.Watched) (Fleet.serve running calm)
    (Fleet.Begins { sampleService "web" with maxReplicas := 1 }) _ emptyFleet_begins
    (fleet_commits running_answers
      (fun w role β operation value calmly => by
        cases operation with
        | write id edit =>
          cases edit with
          | removeInstance | promote => cases calmly
          | _ => trivial
        | _ => trivial) running_watched) oneTick
    (by simp [oneTick, Turn.Lawful, fleetSystem]) (fun w => decide (w.made.length = 1)) (by decide +kernel)
  exact ⟨w, reached, of_decide_eq_true passed, replicas_within_ceiling _ reached⟩

def peerNode : Cluster.Node := { selfNode with id := "n2", hostname := "n2", address := "10.0.0.2", isSelf := false }

def unheard (now : Nat) : {β : Type} → Ask β → β
  | _, .nodes => [selfNode, peerNode]
  | _, .node _ => some peerNode
  | _, .schedule _ => some "n2"
  | _, .urls _ => ["https://10.0.0.2:8553"]
  | _, .post _ _ (.create ..) => none
  | _, operation => operation.answer now []

theorem unheard_answers (now : Nat) {β : Type} (operation : Ask β) : operation.Answers (unheard now operation) := by
  cases operation with
  | nodes =>
    intro a first b second same
    simp only [unheard, List.mem_cons, List.not_mem_nil, or_false] at first second
    rcases first with rfl | rfl <;> rcases second with rfl | rfl
    · rfl
    · exact absurd same (by decide)
    · exact absurd same (by decide)
    · rfl
  | _ => trivial

def twoTicks : List FleetTurn := Turn.whole .reconciler reconcile 30 ++ Turn.whole .reconciler reconcile 30

/-- Two ticks make a container each, where one is the most there may be. -/
theorem ceiling_passed : ∃ w, (fleetSystem fun _ _ _ _ _ _ => True).Reaches
    (Fleet.Begins { sampleService "web" with maxReplicas := 1 }) w ∧ ¬w.made.length ≤ max 1 1 := by
  obtain ⟨w, reached, passed⟩ := @conduct_reaches _ _ _ _ _ (fleetSystem fun _ _ _ _ _ _ => True)
    (Fleet.serve unheard fun _ => true) (Fleet.Begins { sampleService "web" with maxReplicas := 1 }) _ emptyFleet_begins
    (fleet_commits unheard_answers (fun _ _ _ _ _ _ => trivial) fun _ _ _ _ _ _ => trivial) twoTicks
    (by simp [twoTicks, Turn.whole, Turn.Lawful, fleetSystem])
    (fun w => decide (w.made.length = 2)) (by decide +kernel)
  refine ⟨w, reached, ?_⟩
  rw [of_decide_eq_true passed]
  decide

end WolfRun
