import WolfStack.WolfRun.Fleet

/-! Making one more container, and putting it on record. -/

namespace WolfRun
open Effects

variable {svc service : WolfRunService} {count : Nat}

theorem grown_held {w : Fleet} (room : count + 1 ≤ ceiling svc) (name : String) (within : w.Within svc) (held : Held count [] w) :
    (w.grown name).Within svc ∧ Held (count + 1) [name] (w.grown name) := by
  have few : (w.grown name).made.length ≤ count + 1 := Nat.succ_le_succ held.few
  refine ⟨⟨within.alone, few.trans room⟩, few, ?_⟩
  exact (List.subperm_cons name).mpr held.counted

theorem grown_awaited {w : Fleet} (room : count + 1 ≤ ceiling svc) {name : String} (within : w.Within svc)
    (held : Held count [] w) (fresh : name ∉ w.made) (awaited : name ∈ w.active.map Prod.snd) :
    (w.grown name).Within svc ∧ Held (count + 1) [] (w.grown name) := by
  have few : (w.grown name).made.length ≤ count + 1 := Nat.succ_le_succ held.few
  refine ⟨⟨within.alone, few.trans room⟩, few, ?_⟩
  exact List.cons_subperm_of_not_mem_of_mem fresh awaited held.counted

theorem queryMakes {operation : Ask Bool} (name : String) (room : count + 1 ≤ ceiling svc)
    (creates : operation.makes = some name) (told : ∀ ok, operation.Succeeds ok ↔ ok = true) :
    (fleetRules svc .reconciler).Triple (Held count []) (query operation) fun ok w =>
      if ok = true then Held (count + 1) [name] w else Held count [] w := by
  refine Rules.Triple.leading (fun ok w => if ok = true then Held (count + 1) [name] w else Held count [] w)
    (Held.lasting count []).stable ?_ fun ok => ?_
  · intro before ok after within held law
    rcases creation_step creates law with ⟨succeeds, -, rfl⟩ | ⟨failed, rfl⟩
    · obtain rfl := (told ok).mp succeeds
      obtain ⟨kept, more⟩ := grown_held room name within held
      exact ⟨kept, trivial, more⟩
    · refine ⟨within, trivial, ?_⟩
      rw [if_neg fun ok_ => failed ((told ok).mpr ok_)]
      exact held
  · cases ok with
    | true => exact .pure _ (Held.lasting (count + 1) [name]).stable fun _ _ held => held
    | false => exact .pure _ (Held.lasting count []).stable fun _ _ held => held

theorem registerTriple {pre post : Fleet → Prop} (named : service.id = svc.id) {nodeId name status : String}
    {ip : Option String} (still : Lasting pre) (last : Lasting post)
    (recorded : ∀ before after : Fleet, after.made = before.made → after.active = before.active ++ [(nodeId, name)] →
      pre before → post after) :
    (fleetRules svc .reconciler).Triple pre (register service nodeId name status ip) fun _ => post := by
  refine Rules.Triple.bind (queryTriple still trivial) fun now => ?_
  refine Rules.Triple.leading (fun _ => post) still.stable ?_ fun _ => ?_
  · rintro before value after within holds ⟨-, store, ran, rfl⟩
    rw [ran.means.2]
    refine ⟨within.write trivial, trivial, recorded before _ rfl ?_ holds⟩
    obtain ⟨s, alone, same, -⟩ := within.alone
    simp only [Fleet.active, alone, modify_alone rfl, if_pos (same.trans named.symm), List.flatMap_cons, List.flatMap_nil,
      List.append_nil]
    simp [Edit.apply, addedInstance, actives, newInstance, List.filter_append, record]
  · exact tameTriple last ⟨trivial, fun _ => trivial⟩

theorem registerMade (named : service.id = svc.id) {nodeId name status : String} {ip : Option String} :
    (fleetRules svc .reconciler).Triple (Held count [name]) (register service nodeId name status ip) fun _ => Held count [] := by
  apply registerTriple named (Held.lasting count [name]) (Held.lasting count [])
  intro before after made active held
  refine ⟨made ▸ held.few, ?_⟩
  rw [made, active, List.map_append]
  exact held.counted.trans List.perm_append_comm.subperm

theorem registerAhead (named : service.id = svc.id) {nodeId name status : String} {ip : Option String} :
    (fleetRules svc .reconciler).Triple (Held count []) (register service nodeId name status ip) fun _ => Held count [] := by
  apply registerTriple named (Held.lasting count []) (Held.lasting count [])
  intro before after made active held
  refine ⟨made ▸ held.few, ?_⟩
  rw [made, active, List.map_append]
  exact held.counted.trans (List.sublist_append_left _ _).subperm

theorem nothingMade {α : Type} (value : α) :
    (fleetRules svc .reconciler).Triple (Held count []) (.pure value) fun _ => Held (count + 1) [] :=
  .pure value (Held.lasting count []).stable fun _ _ held => held.mono (Nat.le_succ count)

theorem deployDockerTriple (named : service.id = svc.id) (room : count + 1 ≤ ceiling svc) (node : Cluster.Node)
    (containerName : String) (env : List String) (nodeId : String) :
    (fleetRules svc .reconciler).Triple (Held count []) (deployDocker node containerName service env nodeId)
      fun _ => Held (count + 1) [] := by
  have still := Held.lasting count []
  have more := Held.lasting (count + 1) [containerName]
  refine Rules.Triple.bind (queryTriple still trivial) fun wolfnetIp => ?_
  split
  · refine Rules.Triple.bind (queryMakes containerName room rfl fun _ => Iff.rfl) fun made => ?_
    cases made with
    | false => exact nothingMade ()
    | true =>
      refine Rules.Triple.bind (queryTriple more trivial) fun _ => ?_
      exact registerMade named
  · refine Rules.Triple.bind (queryTriple still trivial) fun pullUrls => ?_
    refine Rules.Triple.bind (tameTriple still (postUntilOk_keeps (fun _ => trivial) _)) fun pulled => ?_
    cases pulled with
    | false => exact nothingMade ()
    | true =>
      refine Rules.Triple.bind (queryTriple still trivial) fun createUrls => ?_
      refine Rules.Triple.bind (postTriple containerName still more (fun _ => rfl) ?_ _) fun made => ?_
      · exact fun w _ within held _ => grown_held room containerName within held
      match made with
      | some true =>
        refine Rules.Triple.bind (queryTriple more trivial) fun startUrls => ?_
        refine Rules.Triple.bind (tameTriple more (postUntilOk_keeps (fun _ => trivial) _)) fun _ => ?_
        exact registerMade named
      | some false => exact nothingMade ()
      | none => exact nothingMade ()

theorem cloneHereTriple (room : count + 1 ≤ ceiling svc) (template clone : String) :
    (fleetRules svc .reconciler).Triple (Held count []) (cloneHere template clone) fun cloned w =>
      if cloned = true then Held (count + 1) [clone] w else Held count [] w := by
  have still := Held.lasting count []
  have more := Held.lasting (count + 1) [clone]
  refine Rules.Triple.bind (queryTriple still trivial) fun _ => ?_
  refine Rules.Triple.bind (queryMakes clone room rfl fun _ => Iff.rfl) fun cloned => ?_
  cases cloned with
  | false =>
    refine Rules.Triple.bind (queryTriple still trivial) fun _ => ?_
    exact .pure _ still.stable fun _ _ held => held
  | true =>
    refine Rules.Triple.bind (queryTriple more trivial) fun _ => ?_
    have start : Keeps Tame (startClone clone) := by
      refine (query_keeps trivial).bind fun started => ?_
      cases started with
      | true => trivial
      | false => exact (query_keeps trivial).bind fun _ => trivial
    have attach : Keeps Tame (attachFresh clone) := by
      refine (query_keeps trivial).bind fun ip => ?_
      cases ip with
      | some ip => exact query_keeps trivial
      | none => trivial
    refine Rules.Triple.bind (tameTriple more start) fun _ => ?_
    refine Rules.Triple.bind (tameTriple more attach) fun _ => ?_
    exact .pure _ more.stable fun _ _ held => held

theorem cloneThereTriple (room : count + 1 ≤ ceiling svc) (source : Cluster.Node) (template clone : String) :
    (fleetRules svc .reconciler).Triple (Held count []) (cloneThere source template clone) fun cloned w =>
      if cloned = true then Held (count + 1) [clone] w else Held count [] w := by
  have still := Held.lasting count []
  have more := Held.lasting (count + 1) [clone]
  refine Rules.Triple.bind (queryTriple still trivial) fun urls => ?_
  refine Rules.Triple.bind (postTriple clone still more (fun _ => rfl) ?_ _) fun answer => ?_
  · exact fun w _ within held _ => grown_held room clone within held
  match answer with
  | some true =>
    refine Rules.Triple.bind (queryTriple more trivial) fun startUrls => ?_
    refine Rules.Triple.bind (tameTriple more (postFirst_keeps (fun _ => trivial) _)) fun _ => ?_
    exact .pure _ more.stable fun _ _ held => held
  | some false => exact .pure _ still.stable fun _ _ held => held
  | none => exact .pure _ still.stable fun _ _ held => held

theorem cloneBesideTriple (room : count + 1 ≤ ceiling svc) (node : Cluster.Node) (source : Option Cluster.Node)
    (template clone : String) :
    (fleetRules svc .reconciler).Triple (Held count []) (cloneBeside node source template clone) fun cloned w =>
      if cloned = true then Held (count + 1) [clone] w else Held count [] w := by
  unfold cloneBeside
  split
  · exact cloneHereTriple room template clone
  · cases source with
    | some source => exact cloneThereTriple room source template clone
    | none => exact .pure _ (Held.lasting count []).stable fun _ _ held => held

theorem migrateTriple (room : count + 1 ≤ ceiling svc) (source : Option Cluster.Node) (template clone nodeId : String)
    (ip : Option String) :
    (fleetRules svc .reconciler).Triple (Held count []) (migrate source template clone nodeId ip) fun answer w =>
      if answer = some true then Held (count + 1) [] w else Held count [] w := by
  have still := Held.lasting count []
  cases source with
  | none => exact .pure _ still.stable fun _ _ held => held
  | some source =>
    refine Rules.Triple.bind (tameTriple still (cloneUrls_keeps trivial)) fun urls => ?_
    refine postTriple clone still (Held.lasting (count + 1) []) (fun _ => rfl) ?_ urls
    intro w url within held watched
    obtain ⟨fresh, awaited⟩ := watched rfl
    exact grown_awaited room within held fresh awaited

theorem cloneAcrossTriple (named : service.id = svc.id) (room : count + 1 ≤ ceiling svc) (source : Option Cluster.Node)
    (template clone nodeId : String) :
    (fleetRules svc .reconciler).Triple (Held count []) (cloneAcross service source template clone nodeId)
      fun _ => Held (count + 1) [] := by
  have letGo : (fleetRules svc .reconciler).Triple (Held count []) (removeInstance service.id clone).first
      fun _ => Held (count + 1) [] :=
    (tameTriple (Held.lasting count []) (removeInstance_tame _ _)).weaken_post fun _ _ _ held => held.mono (Nat.le_succ count)
  refine Rules.Triple.bind (queryTriple (Held.lasting count []) trivial) fun ip => ?_
  refine Rules.Triple.bind (registerAhead named) fun _ => ?_
  refine Rules.Triple.bind (migrateTriple room source template clone nodeId ip) fun answer => ?_
  match answer with
  | some true => exact .pure () (Held.lasting (count + 1) []).stable fun _ _ held => held
  | some false => exact letGo
  | none => exact letGo

theorem deployCloneTriple (named : service.id = svc.id) (room : count + 1 ≤ ceiling svc) (node : Cluster.Node)
    (template : String) (templateNode : Option String) (nodeId shortId : String) :
    (fleetRules svc .reconciler).Triple (Held count []) (deployClone node service template templateNode nodeId shortId)
      fun _ => Held (count + 1) [] := by
  refine Rules.Triple.bind (queryTriple (Held.lasting count []) trivial) fun source => ?_
  split
  · refine Rules.Triple.bind (cloneBesideTriple room node source template _) fun cloned => ?_
    cases cloned with
    | false => exact nothingMade ()
    | true => exact registerMade named
  · exact cloneAcrossTriple named room source template _ nodeId

theorem createOneTriple (named : service.id = svc.id) (room : count + 1 ≤ ceiling svc) (live : List ServiceInstance) :
    (fleetRules svc .reconciler).Triple (Held count []) (createOne service live) fun _ => Held (count + 1) [] := by
  have still := Held.lasting count []
  have more := Held.lasting (count + 1) []
  have get : Keeps Tame (Program.send (.first (.get service.id))) := ⟨trivial, fun _ => trivial⟩
  refine Rules.Triple.bind (tameTriple still get) fun current => ?_
  refine Rules.Triple.bind (queryTriple still trivial) fun chosen => ?_
  cases chosen with
  | none => exact nothingMade false
  | some nodeId =>
    refine Rules.Triple.bind (queryTriple still trivial) fun found => ?_
    cases found with
    | none => exact nothingMade true
    | some node =>
      refine Rules.Triple.bind (queryTriple still trivial) fun shortId => ?_
      dsimp only
      split
      · refine Rules.Triple.bind (deployDockerTriple named room node _ _ nodeId) fun _ => ?_
        exact .pure true more.stable fun _ _ held => held
      · refine Rules.Triple.bind (deployCloneTriple named room node _ _ nodeId shortId) fun _ => ?_
        exact .pure true more.stable fun _ _ held => held

theorem createManyTriple (named : service.id = svc.id) (live : List ServiceInstance) (more : Nat)
    (room : more = 0 ∨ count + more ≤ ceiling svc) :
    (fleetRules svc .reconciler).Triple (Held count []) (createMany service live more) fun _ => Held (count + more) [] := by
  induction more generalizing count with
  | zero => exact .pure () (Held.lasting count []).stable fun _ _ held => held
  | succ more ih =>
    have bound : count + (more + 1) ≤ ceiling svc := room.resolve_left (Nat.succ_ne_zero more)
    have one : count + 1 ≤ ceiling svc := by omega
    have rest : more = 0 ∨ count + 1 + more ≤ ceiling svc := .inr (by omega)
    have total : count + 1 + more = count + (more + 1) := by omega
    refine Rules.Triple.bind (createOneTriple named one live) fun again => ?_
    cases again with
    | false =>
      refine .pure () (Held.lasting (count + 1) []).stable fun _ _ held => held.mono ?_
      omega
    | true => exact total ▸ ih rest

end WolfRun
