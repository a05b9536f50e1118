import WolfStack.Effects.Trace
import WolfStack.WolfRun.Ledger
import WolfStack.WolfRun.Reconcile

/-! What a pass may ask for: most of it makes no container and records none, and what it
puts back it has copied. -/

namespace WolfRun
open Effects

section
variable {kind : {β : Type} → Joint Section Ask β → Prop} {α β : Type}

abbrev Keeps (kind : {β : Type} → Joint Section Ask β → Prop) (program : Pass α) : Prop := program.Yields kind fun _ => True

theorem Keeps.bind {program : Pass α} {next : α → Pass β} (first : Keeps kind program)
    (rest : ∀ value, Keeps kind (next value)) : Keeps kind (program.bind next) :=
  Program.Yields.bind first fun value _ => rest value

theorem query_keeps {operation : Ask α} (may : kind (.second operation)) : Keeps kind (query operation) :=
  ⟨may, fun _ => trivial⟩

theorem postFirst_keeps {node : Cluster.Node} {call : Call} (may : ∀ url, kind (.second (.post node url call)))
    (urls : List String) : Keeps kind (postFirst node call urls) := by
  induction urls with
  | nil => trivial
  | cons url rest ih =>
    refine (query_keeps (may url)).bind fun answer => ?_
    cases answer with
    | some ok => trivial
    | none => exact ih

theorem postUntilOk_keeps {node : Cluster.Node} {call : Call} (may : ∀ url, kind (.second (.post node url call)))
    (urls : List String) : Keeps kind (postUntilOk node call urls) := by
  induction urls with
  | nil => trivial
  | cons url rest ih =>
    refine (query_keeps (may url)).bind fun answer => ?_
    match answer with
    | some true => trivial
    | some false => exact ih
    | none => exact ih

theorem touched_keeps {id : String} {edit : Edit} (may : kind (.first (.write id edit)))
    (save : kind (.first .saveServices)) : Keeps kind (touched id edit).first :=
  ⟨may, fun _ => ⟨save, fun _ => trivial⟩⟩

end

def Tame : {β : Type} → Joint Section Ask β → Prop
  | _, .first (.get _) | _, .first .saveServices => True
  | _, .first (.write _ (.removeInstance _)) | _, .first (.write _ (.promote _ _)) => True
  | _, .first _ => False
  | _, .second (.createLocal ..) | _, .second (.cloneLocal ..) => False
  | _, .second (.post _ _ (.create ..)) | _, .second (.post _ _ (.clone ..)) => False
  | _, .second _ => True

section
variable {α : Type}

theorem fetchRemote_tame (node : Cluster.Node) (runtime : Runtime) (urls : List String) :
    Keeps Tame (fetchRemote node runtime urls) := by
  induction urls with
  | nil => trivial
  | cons url rest ih =>
    refine (query_keeps trivial).bind fun answer => ?_
    cases answer with
    | containers found => trivial
    | refused | garbled => trivial
    | unreachable => exact ih

/-! Looking an instance up leaves which instance it is. -/

theorem lost_record (inst : ServiceInstance) : record (lost inst) = record inst := by
  unfold lost unlessPending
  split <;> rfl

theorem offline_record (inst : ServiceInstance) : record (offline inst) = record inst := by
  unfold offline unlessPending
  split <;> rfl

abbrev Sees (inst : ServiceInstance) (program : Pass (Lists × ServiceInstance)) : Prop :=
  program.Yields Tame fun result => record result.2 = record inst

theorem Sees.after {inst : ServiceInstance} {program : Pass α} {next : α → Pass (Lists × ServiceInstance)}
    (first : Keeps Tame program) (rest : ∀ value, Sees inst (next value)) : Sees inst (program.bind next) :=
  Program.Yields.bind first fun value _ => rest value

theorem listHere_tame (lists : Lists) (node : Cluster.Node) (runtime : Runtime) :
    Keeps Tame (listHere lists node runtime) := by
  unfold listHere
  split
  · trivial
  · exact (query_keeps trivial).bind fun _ => trivial

theorem listThere_tame (lists : Lists) (node : Cluster.Node) (runtime : Runtime) :
    Keeps Tame (listThere lists node runtime) := by
  unfold listThere
  split
  · trivial
  · refine (query_keeps trivial).bind fun urls => ?_
    exact ((fetchRemote_tame node runtime urls)).bind fun _ => trivial

theorem observeLocal_sees (lists : Lists) (node : Cluster.Node) (runtime : Runtime) (inst : ServiceInstance) :
    Sees inst (observeLocal lists node runtime inst) := by
  have available : Keeps Tame (runtimeAvailable node runtime) := by
    unfold runtimeAvailable
    split
    · trivial
    · exact query_keeps trivial
  refine Sees.after available fun present => ?_
  cases present with
  | false => exact offline_record inst
  | true =>
    refine Sees.after (listHere_tame lists node runtime) fun (lists, containers) => ?_
    dsimp only
    split
    · refine Sees.after (query_keeps trivial) fun inWolfnet => ?_
      refine Sees.after (query_keeps trivial) fun now => ?_
      exact rfl
    · exact lost_record inst

theorem observeRemote_sees (lists : Lists) (node : Cluster.Node) (runtime : Runtime) (inst : ServiceInstance) :
    Sees inst (observeRemote lists node runtime inst) := by
  refine Sees.after (listThere_tame lists node runtime) fun (lists, listing) => ?_
  cases listing with
  | none => exact offline_record inst
  | some containers =>
    dsimp only
    split
    · refine Sees.after (query_keeps trivial) fun inWolfnet => ?_
      refine Sees.after (query_keeps trivial) fun now => ?_
      exact rfl
    · exact lost_record inst

theorem observe_sees (nodes : List Cluster.Node) (lists : Lists) (runtime : Runtime) (inst : ServiceInstance) :
    Sees inst (observe nodes lists runtime inst) := by
  unfold observe
  split
  · split
    · exact observeLocal_sees lists _ runtime inst
    · split
      · exact observeRemote_sees lists _ runtime inst
      · exact offline_record inst
  · exact offline_record inst

theorem observeAll_sees (nodes : List Cluster.Node) (runtime : Runtime) (lists : Lists) (instances : List ServiceInstance) :
    (observeAll nodes runtime lists instances).Yields Tame fun result => result.2.map record = instances.map record := by
  induction instances generalizing lists with
  | nil => exact rfl
  | cons inst rest ih =>
    refine Program.Yields.bind (observe_sees nodes lists runtime inst) fun (lists, seen) same => ?_
    refine Program.Yields.bind (ih lists) fun (lists, live) others => ?_
    change record seen :: live.map record = record inst :: rest.map record
    rw [show record seen = record inst from same, show live.map record = rest.map record from others]

theorem removeInstance_tame (id containerName : String) : Keeps Tame (removeInstance id containerName).first :=
  touched_keeps trivial trivial

theorem removeInstances_tame (service : WolfRunService) (instances : List ServiceInstance) :
    Keeps Tame (removeInstances service instances) := by
  induction instances with
  | nil => trivial
  | cons inst rest ih => exact (removeInstance_tame _ _).bind fun _ => ih

theorem watchAll_tame (service : WolfRunService) (instances : List ServiceInstance) :
    Keeps Tame (watchAll service instances) := by
  have restarts : ∀ inst, Keeps Tame (restart service inst) := by
    intro inst
    refine (query_keeps trivial).bind fun found => ?_
    cases found with
    | none => trivial
    | some node =>
      refine (query_keeps trivial).bind fun due => ?_
      cases due with
      | false => trivial
      | true =>
        change Keeps Tame (if node.isSelf = true then _ else _)
        split
        · exact (query_keeps trivial).bind fun _ => trivial
        · refine (query_keeps trivial).bind fun urls => ?_
          exact (postFirst_keeps (fun _ => trivial) _).bind fun _ => trivial
  induction instances with
  | nil => trivial
  | cons inst rest ih =>
    refine Keeps.bind ?_ fun _ => ih
    unfold watch
    split
    · trivial
    · split
      · exact query_keeps trivial
      · split
        · exact restarts inst
        · trivial

theorem dropStandbys_tame (nodes : List Cluster.Node) (service : WolfRunService) (instances : List ServiceInstance) :
    Keeps Tame (dropStandbys nodes service instances) := by
  induction instances with
  | nil => trivial
  | cons inst rest ih =>
    refine Keeps.bind ?_ fun _ => (removeInstance_tame _ _).bind fun _ => ih
    unfold destroyStandby
    split
    · trivial
    · split
      · exact (query_keeps trivial).bind fun _ => query_keeps trivial
      · split
        · refine (query_keeps trivial).bind fun urls => ?_
          exact (postFirst_keeps (fun _ => trivial) _).bind fun _ => (postFirst_keeps (fun _ => trivial) _).bind fun _ => trivial
        · trivial

end

def Edit.Spares : Edit → Prop
  | .removeInstance _ | .promote _ _ => True
  | .addInstance inst => inst.standby = true
  | _ => False

def Spare : {β : Type} → Joint Section Ask β → Prop
  | _, .first (.get _) | _, .first (.list _) | _, .first .saveServices => True
  | _, .first (.write _ edit) => edit.Spares
  | _, .first _ => False
  | _, .second _ => True

theorem tame_spare {β : Type} {operation : Joint Section Ask β} (tame : Tame operation) : Spare operation := by
  cases operation with
  | first operation =>
    cases operation with
    | write id edit =>
      cases edit with
      | removeInstance _ | promote _ _ => trivial
      | _ => exact tame.elim
    | get _ | saveServices => trivial
    | _ => exact tame.elim
  | second _ => trivial

theorem promoteAll_spare (nodes : List Cluster.Node) (service : WolfRunService) (failed standbys : List ServiceInstance) :
    Keeps Spare (promoteAll nodes service failed standbys) := by
  have start : ∀ node standby, Keeps Spare (startStandby service node standby) := by
    intro node standby
    have attach : Keeps Spare (attachPlanned standby) := by
      unfold attachPlanned
      split
      · exact query_keeps trivial
      · trivial
    unfold startStandby
    split
    · split
      · exact query_keeps trivial
      · exact attach.bind fun _ => query_keeps trivial
    · refine (query_keeps trivial).bind fun urls => ?_
      exact (postFirst_keeps (fun _ => trivial) _).bind fun _ => trivial
  induction failed generalizing standbys with
  | nil => trivial
  | cons first rest ih =>
    unfold promoteAll
    split
    · exact ih _
    · split
      · exact ih _
      · refine (start _ _).bind fun started => ?_
        cases started with
        | false => exact ih _
        | true => exact (touched_keeps trivial trivial).bind fun _ => ih _

theorem failoverAll_spare (nodes : List Cluster.Node) (services : Services) : Keeps Spare (failoverAll nodes services) := by
  induction services with
  | nil => trivial
  | cons service rest ih => exact (promoteAll_spare ..).bind fun _ => ih

theorem checkFailover_spare : Keeps Spare checkFailover := by
  refine (query_keeps trivial).bind fun nodes => ⟨trivial, fun services => ?_⟩
  dsimp only [Program.pure_bind]
  split
  · trivial
  · exact (query_keeps trivial).bind fun nodes => failoverAll_spare nodes services

theorem cloneUrls_keeps {kind : {β : Type} → Joint Section Ask β → Prop} {source : Cluster.Node}
    (may : kind (.second (.urls source))) : Keeps kind (cloneUrls source) := by
  unfold cloneUrls
  split
  · trivial
  · exact query_keeps may

theorem createStandby_spare (nodes : List Cluster.Node) (service : WolfRunService) (source : ServiceInstance)
    (target : Cluster.Node) : Keeps Spare (createStandby nodes service source target) := by
  have docker : ∀ name ip, Keeps Spare (createStandbyDocker service target name ip) := by
    intro name ip
    unfold createStandbyDocker
    split
    · exact query_keeps trivial
    · refine (query_keeps trivial).bind fun pullUrls => ?_
      refine (postUntilOk_keeps (fun _ => trivial) _).bind fun pulled => ?_
      cases pulled with
      | false => trivial
      | true =>
        refine (query_keeps trivial).bind fun createUrls => ?_
        exact (postFirst_keeps (fun _ => trivial) _).bind fun _ => trivial
  have lxc : ∀ name ip, Keeps Spare (cloneStandby nodes source target name ip) := by
    intro name ip
    unfold cloneStandby
    split
    · trivial
    · refine (cloneUrls_keeps trivial).bind fun urls => ?_
      exact (postFirst_keeps (fun _ => trivial) _).bind fun _ => trivial
  have finish : ∀ (name : String) (created : Bool),
      Keeps Spare (if created = true then pure () else (removeInstance service.id name).first) := by
    intro name created
    cases created with
    | true => trivial
    | false => exact touched_keeps trivial trivial
  refine (query_keeps trivial).bind fun uuid => ?_
  refine (query_keeps trivial).bind fun ip => ?_
  refine (query_keeps trivial).bind fun now => ?_
  refine (touched_keeps rfl trivial).bind fun _ => ?_
  cases service.runtime with
  | docker => exact (docker _ _).bind fun created => finish _ created
  | lxc => exact (lxc _ _).bind fun created => finish _ created

theorem standbysOf_spare (nodes : List Cluster.Node) (service : WolfRunService) : Keeps Spare (standbysOf nodes service) := by
  have eligible : ∀ occupied candidates, Keeps Spare (eligibleNodes service occupied candidates) := by
    intro occupied candidates
    induction candidates with
    | nil => trivial
    | cons n rest ih =>
      have present : Keeps Spare (hasRuntime service n) := by
        unfold hasRuntime
        split
        · trivial
        · split
          · exact query_keeps trivial
          · trivial
      exact present.bind fun _ => ih.bind fun _ => trivial
  have all : ∀ source targets, Keeps Spare (createStandbys nodes service source targets) := by
    intro source targets
    induction targets with
    | nil => trivial
    | cons target rest ih => exact (createStandby_spare nodes service source target).bind fun _ => ih
  unfold standbysOf
  split
  · refine (eligible _ _).bind fun targets => ?_
    split
    · exact all _ targets
    · trivial
  · trivial

theorem manageStandby_spare : Keeps Spare manageStandby := by
  have all : ∀ nodes services, Keeps Spare (standbysOfAll nodes services) := by
    intro nodes services
    induction services with
    | nil => trivial
    | cons service rest ih => exact (standbysOf_spare nodes service).bind fun _ => ih
  refine (query_keeps trivial).bind fun nodes => ⟨trivial, fun services => ?_⟩
  dsimp only [Program.pure_bind]
  split
  · trivial
  · exact (query_keeps trivial).bind fun nodes => all nodes services

/-- Instances are put back only under a copied service, and only those that it has. -/
def PutsBack (copy : Services) : {β : Type} → Joint Section Ask β → Prop
  | _, .first (.write id (.instances live)) => ∃ c ∈ copy, c.id = id ∧ live.map record = records c
  | _, .first (.list _) => False
  | _, _ => True

section
variable {copy : Services} {α : Type}

abbrev Harmless (copy : Services) (program : Pass α) : Prop := Keeps (PutsBack copy) program

theorem tame_putsBack {β : Type} {operation : Joint Section Ask β} (tame : Tame operation) : PutsBack copy operation := by
  cases operation with
  | first operation =>
    cases operation with
    | write id edit =>
      cases edit with
      | instances _ => exact tame.elim
      | _ => trivial
    | list _ => exact tame.elim
    | _ => trivial
  | second _ => trivial

theorem Keeps.harmless {program : Pass α} (tame : Keeps Tame program) : Harmless copy program :=
  tame.mono fun _ => tame_putsBack

theorem touched_harmless (id : String) {edit : Edit} (plain : ¬edit.Rewrites) : Harmless copy (touched id edit).first := by
  refine ⟨?_, fun _ => ⟨trivial, fun _ => trivial⟩⟩
  cases edit with
  | instances _ => exact absurd trivial plain
  | _ => trivial

/-! The rest of a pass adds and removes, one instance at a time. -/

theorem register_harmless (service : WolfRunService) (nodeId containerName status : String) (wolfnetIp : Option String) :
    Harmless copy (register service nodeId containerName status wolfnetIp) :=
  (query_keeps trivial).bind fun _ => touched_harmless _ fun impossible => impossible

theorem deployDocker_harmless (node : Cluster.Node) (containerName : String) (service : WolfRunService) (env : List String)
    (nodeId : String) : Harmless copy (deployDocker node containerName service env nodeId) := by
  refine (query_keeps trivial).bind fun wolfnetIp => ?_
  split
  · refine (query_keeps trivial).bind fun made => ?_
    cases made with
    | false => trivial
    | true => exact (query_keeps trivial).bind fun _ => register_harmless ..
  · refine (query_keeps trivial).bind fun pullUrls => ?_
    refine (postUntilOk_keeps (fun _ => trivial) _).bind fun pulled => ?_
    cases pulled with
    | false => trivial
    | true =>
      refine (query_keeps trivial).bind fun createUrls => ?_
      refine (postFirst_keeps (fun _ => trivial) _).bind fun made => ?_
      match made with
      | some true =>
        refine (query_keeps trivial).bind fun startUrls => ?_
        exact (postUntilOk_keeps (fun _ => trivial) _).bind fun _ => register_harmless ..
      | some false => trivial
      | none => trivial

theorem cloneHere_harmless (template clone : String) : Harmless copy (cloneHere template clone) := by
  refine (query_keeps trivial).bind fun _ => ?_
  refine (query_keeps trivial).bind fun cloned => ?_
  refine (query_keeps trivial).bind fun _ => ?_
  cases cloned with
  | false => trivial
  | true =>
    have start : Harmless copy (startClone clone) := by
      refine (query_keeps trivial).bind fun started => ?_
      cases started with
      | true => trivial
      | false => exact (query_keeps trivial).bind fun _ => trivial
    have attach : Harmless copy (attachFresh clone) := by
      refine (query_keeps trivial).bind fun ip => ?_
      cases ip with
      | some ip => exact query_keeps trivial
      | none => trivial
    exact start.bind fun _ => attach.bind fun _ => trivial

theorem cloneBeside_harmless (node : Cluster.Node) (source : Option Cluster.Node) (template clone : String) :
    Harmless copy (cloneBeside node source template clone) := by
  unfold cloneBeside
  split
  · exact cloneHere_harmless template clone
  · cases source with
    | none => trivial
    | some source =>
      refine (query_keeps trivial).bind fun urls => ?_
      refine (postFirst_keeps (fun _ => trivial) _).bind fun answer => ?_
      match answer with
      | some true =>
        refine (query_keeps trivial).bind fun startUrls => ?_
        exact (postFirst_keeps (fun _ => trivial) _).bind fun _ => trivial
      | some false => trivial
      | none => trivial

theorem migrate_harmless (source : Option Cluster.Node) (template clone nodeId : String) (ip : Option String) :
    Harmless copy (migrate source template clone nodeId ip) := by
  cases source with
  | none => trivial
  | some source =>
    exact (cloneUrls_keeps trivial).bind fun _ => postFirst_keeps (fun _ => trivial) _

theorem cloneAcross_harmless (service : WolfRunService) (source : Option Cluster.Node) (template clone nodeId : String) :
    Harmless copy (cloneAcross service source template clone nodeId) := by
  refine (query_keeps trivial).bind fun ip => ?_
  refine (register_harmless ..).bind fun _ => ?_
  refine (migrate_harmless ..).bind fun answer => ?_
  match answer with
  | some true => trivial
  | some false => exact (removeInstance_tame _ _).harmless
  | none => exact (removeInstance_tame _ _).harmless

theorem deployClone_harmless (node : Cluster.Node) (service : WolfRunService) (template : String)
    (templateNode : Option String) (nodeId shortId : String) :
    Harmless copy (deployClone node service template templateNode nodeId shortId) := by
  refine (query_keeps trivial).bind fun source => ?_
  split
  · refine (cloneBeside_harmless ..).bind fun cloned => ?_
    cases cloned with
    | false => trivial
    | true => exact register_harmless ..
  · exact cloneAcross_harmless ..

theorem createOne_harmless (service : WolfRunService) (live : List ServiceInstance) : Harmless copy (createOne service live) := by
  refine ⟨trivial, fun current => ?_⟩
  refine (query_keeps trivial).bind fun chosen => ?_
  cases chosen with
  | none => trivial
  | some nodeId =>
    refine (query_keeps trivial).bind fun found => ?_
    cases found with
    | none => trivial
    | some node =>
      refine (query_keeps trivial).bind fun shortId => ?_
      dsimp only
      split
      · exact (deployDocker_harmless ..).bind fun _ => trivial
      · exact (deployClone_harmless ..).bind fun _ => trivial

theorem createMany_harmless (service : WolfRunService) (live : List ServiceInstance) (count : Nat) :
    Harmless copy (createMany service live count) := by
  induction count with
  | zero => trivial
  | succ count ih =>
    refine (createOne_harmless service live).bind fun more => ?_
    cases more with
    | false => trivial
    | true => exact ih

theorem settle_harmless (nodes : List Cluster.Node) {service : WolfRunService} {live : List ServiceInstance}
    (copied : service ∈ copy) (same : live.map record = records service) : Harmless copy (settle nodes service live) := by
  have back : Harmless copy (updateInstances service.id live).first :=
    ⟨⟨service, copied, rfl, same⟩, fun _ => ⟨trivial, fun _ => trivial⟩⟩
  have up : Harmless copy (scaleUp service live) := by
    unfold scaleUp
    split
    · exact createMany_harmless ..
    · trivial
  have down : Harmless copy (scaleDown service live) := by
    unfold scaleDown
    split
    · exact (removeInstances_tame ..).harmless
    · trivial
  refine back.bind fun _ => up.bind fun _ => down.bind fun _ => ?_
  refine (watchAll_tame ..).harmless.bind fun _ => (query_keeps trivial).bind fun now => ?_
  refine (removeInstances_tame ..).harmless.bind fun _ => ?_
  split
  · trivial
  · exact (dropStandbys_tame ..).harmless

theorem reconcileAll_harmless (lists : Lists) {services : Services} (copied : ∀ s ∈ services, s ∈ copy) :
    Harmless copy (reconcileAll lists services) := by
  induction services generalizing lists with
  | nil => trivial
  | cons service rest ih =>
    refine (query_keeps trivial).bind fun nodes => ?_
    refine Program.Yields.bind ((observeAll_sees nodes service.runtime lists service.instances).mono fun _ => tame_putsBack)
      fun (lists, live) same => ?_
    refine (settle_harmless nodes (copied service List.mem_cons_self) same).bind fun _ => ?_
    exact ih lists fun s member => copied s (List.mem_cons_of_mem _ member)

end

end WolfRun
