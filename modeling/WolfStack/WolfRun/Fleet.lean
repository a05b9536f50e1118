import WolfStack.WolfRun.Requests
import WolfStack.Effects.System
import Mathlib.Data.List.Perm.Subperm

/-! The containers that the reconciler makes for a service, next to the instances it has
on record. Passes follow one another; standbys are looked after at the same time. -/

namespace WolfRun
open Effects

/-- A node's state; `made` are the containers that passes have made and that still exist. -/
structure Fleet where
  store : Store
  now : Nat
  made : List String

inductive Role where
  | reconciler
  | failover
deriving DecidableEq

def actives (s : WolfRunService) : List (String × String) := (s.instances.filter fun i => i.standby = false).map record

def Fleet.active (w : Fleet) : List (String × String) := w.store.services.flatMap actives

def Ask.makes : {β : Type} → Ask β → Option String
  | _, .createLocal name .. => some name
  | _, .cloneLocal _ clone => some clone
  | _, .post _ _ (.create name ..) => some name
  | _, .post _ _ (.clone _ newName ..) => some newName
  | _, _ => none

def Ask.Succeeds : {β : Type} → Ask β → β → Prop
  | _, .createLocal .., ok => ok = true
  | _, .cloneLocal .., ok => ok = true
  | _, .post _ _ _, answer => answer = some true
  | _, _, _ => True

def Makes (role : Role) (before : List String) {β : Type} (operation : Ask β) (value : β) (after : List String) : Prop :=
  match role, operation.makes with
  | .reconciler, some name => after = name :: before ∨ (¬operation.Succeeds value ∧ after = before)
  | _, _ => after = before

def Distinct (nodes : List Cluster.Node) : Prop :=
  ∀ a ∈ nodes, ∀ b ∈ nodes, a.id = b.id ∨ (a.isSelf = true ∧ b.isSelf = true) → a = b

def Ask.Answers : {β : Type} → Ask β → β → Prop
  | _, .nodes, known => Distinct known
  | _, _, _ => True

def Shows (found : List Container) (name : String) : Prop :=
  ∃ c, (found.find? fun c => c.name = name) = some c ∧ reported c ≠ "lost"

/-- A list of a node's containers leaves out none that has an instance on record there. -/
def Fleet.Complete (w : Fleet) (node : Cluster.Node) (found : List Container) : Prop :=
  ∀ r ∈ w.active, Cluster.nodeMatchesId node r.1 = true → r.2 ∈ w.made → Shows found r.2

/-- No instance goes off the record while its container exists, no list leaves one out,
and no reply is lost. A clone to another node is made under the record it was given. -/
def Fleet.Watched (w : Fleet) (role : Role) : {β : Type} → Joint Section Ask β → β → List String → Prop
  | _, .first (.write _ (.removeInstance name)), _, _ => name ∉ w.made
  | _, .first (.write _ (.promote _ failed)), _, _ => failed ∉ w.made
  | _, .second (.listLocal node _), found, _ => w.Complete node found
  | _, .second (.listRemote node _ _), .containers found, _ => w.Complete node found
  | _, .second (.post _ _ (.clone _ name (some _) _)), some true, _ =>
    role = .reconciler → name ∉ w.made ∧ name ∈ w.active.map Prod.snd
  | _, .second operation, value, made => ¬operation.Succeeds value → made = w.made
  | _, _, _, _ => True

def fleetSystem (permitted : Fleet → Role → {β : Type} → Joint Section Ask β → β → List String → Prop) :
    System Fleet (Joint Section Ask) Role Unit where
  moves before after := ∃ secs, ∃ made, made.Sublist before.made ∧ after = { before with now := before.now + secs, made }
  bodies
    | .reconciler => { reconcile }
    | .failover => { checkFailover, manageStandby }
  commits role _ before operation value after :=
    match operation with
    | .first operation => permitted before role (.first operation) value before.made ∧
        ∃ store, operation.Runs before.now before.store value store ∧ after = { before with store }
    | .second operation => operation.Answers value ∧ ∃ made, Makes role before.made operation value made ∧
        permitted before role (.second operation) value made ∧ after = { before with made }
  stops _ _ := False

structure Fleet.Within (svc : WolfRunService) (w : Fleet) : Prop where
  alone : ∃ s, w.store.services = [s] ∧ s.id = svc.id ∧ s.replicas = svc.replicas ∧ s.maxReplicas = svc.maxReplicas
  bounded : w.made.length ≤ ceiling svc

structure Aside (before after : Fleet) : Prop where
  fewer : after.made.Sublist before.made
  recorded : ∀ r ∈ before.active, r.2 ∈ after.made → r ∈ after.active
  counted : ∀ pending : List String, before.made.Subperm (pending ++ before.active.map Prod.snd) →
    after.made.Subperm (pending ++ after.active.map Prod.snd)

theorem Aside.refl (w : Fleet) : Aside w w := ⟨.refl _, fun _ member _ => member, fun _ counted => counted⟩

theorem Aside.of_moves {before after : Fleet} {secs : Nat} {made : List String} (fewer : made.Sublist before.made)
    (moved : after = { before with now := before.now + secs, made }) : Aside before after := by
  subst moved
  exact ⟨fewer, fun _ member _ => member, fun _ counted => fewer.subperm.trans counted⟩

theorem Aside.of_kept {before after : Fleet} (keeps : String → Bool) (same : after.made = before.made)
    (needed : ∀ name ∈ before.made, keeps name = true)
    (kept : (before.active.filter fun r => keeps r.2).Sublist after.active) : Aside before after := by
  refine ⟨same ▸ .refl _, ?_, ?_⟩
  · intro r member exists_
    apply kept.subset
    rw [List.mem_filter]
    exact ⟨member, needed r.2 (same ▸ exists_)⟩
  · intro pending counted
    rw [same, ← List.filter_eq_self.mpr needed]
    have names : (before.active.map Prod.snd).filter keeps = (before.active.filter fun r => keeps r.2).map Prod.snd :=
      List.filter_map
    have filtered := counted.filter keeps
    rw [List.filter_append, names] at filtered
    exact filtered.trans (List.filter_sublist.append (kept.map Prod.snd)).subperm

def Lasting (assertion : Fleet → Prop) : Prop := ∀ before after, Aside before after → assertion before → assertion after

def rolePromise : Role → Fleet → Fleet → Prop
  | .reconciler => fun _ _ => True
  | .failover => Aside

abbrev fleetRules (svc : WolfRunService) (role : Role) : Rules Fleet (Joint Section Ask) :=
  (fleetSystem Fleet.Watched).rules (Fleet.Within svc) rolePromise role

variable {svc : WolfRunService} {role : Role}

theorem Lasting.stable {assertion : Fleet → Prop} (lasting : Lasting assertion) :
    (fleetRules svc .reconciler).Stable assertion := by
  rintro before after _ _ (⟨secs, made, fewer, moved⟩ | ⟨other, apart, promise⟩) holds
  · exact lasting before after (Aside.of_moves fewer moved) holds
  · cases other with
    | reconciler => exact absurd rfl apart
    | failover => exact lasting before after promise holds

/-- Containers that have been made are on record, but for those just made. -/
structure Held (count : Nat) (pending : List String) (w : Fleet) : Prop where
  few : w.made.length ≤ count
  counted : w.made.Subperm (pending ++ w.active.map Prod.snd)

theorem Held.lasting (count : Nat) (pending : List String) : Lasting (Held count pending) :=
  fun _ _ aside held => ⟨aside.fewer.length_le.trans held.few, aside.counted pending held.counted⟩

theorem Held.mono {count more : Nat} {pending : List String} {w : Fleet} (held : Held count pending w) (fewer : count ≤ more) :
    Held more pending w :=
  ⟨held.few.trans fewer, held.counted⟩

theorem activated_actives (standby : String) (now : Nat) (instances : List ServiceInstance) :
    ((instances.filter fun i => i.standby = false).map record).Sublist
      (((activated standby now instances).filter fun i => i.standby = false).map record) := by
  induction instances with
  | nil => exact .refl _
  | cons first rest ih =>
    rw [activated]
    split
    · by_cases active : first.standby = false
      · simp [active, record]
      · simp [active, record]
    · by_cases active : first.standby = false
      · simpa [active] using ih
      · simpa [active] using ih

theorem without_actives (name : String) (instances : List ServiceInstance) :
    (((instances.filter fun i => i.containerName ≠ name).filter fun i => i.standby = false).map record) =
      ((instances.filter fun i => i.standby = false).map record).filter fun r => r.2 ≠ name := by
  rw [List.filter_filter, List.filter_map, List.filter_filter]
  congr 1
  apply List.filter_congr
  intro i _
  by_cases same : i.containerName = name
  · simp [record, same]
  · simp [record, same]

def Edit.drops : Edit → String → Bool
  | .removeInstance name, other => other = name
  | .promote _ failed, other => other = failed
  | _, _ => false

theorem spares_actives {edit : Edit} (spares : edit.Spares) (now : Nat) (s : WolfRunService) :
    ((actives s).filter fun r => !edit.drops r.2).Sublist (actives (edit.apply now s)) := by
  cases edit with
  | removeInstance name =>
    simp only [Edit.apply, removedInstance, actives, without_actives, Edit.drops]
    simp
  | promote standby failed =>
    simp only [Edit.apply, promoted, actives, without_actives, Edit.drops]
    simpa using (activated_actives standby now s.instances).filter fun r => !decide (r.2 = failed)
  | addInstance inst =>
    have standby : inst.standby = true := spares
    simp [Edit.apply, addedInstance, actives, Edit.drops, List.filter_append, standby]
  | _ => exact spares.elim

theorem modify_alone {id : String} {change : WolfRunService → WolfRunService} {services : Services} {s : WolfRunService}
    (alone : services = [s]) : Services.modify id change services = [if s.id = id then change s else s] := by
  subst alone
  rw [Services.modify]
  split <;> rfl

def Edit.OfInstances : Edit → Prop
  | .instances _ | .addInstance _ | .removeInstance _ | .promote _ _ => True
  | _ => False

theorem Fleet.Within.write {w : Fleet} (within : w.Within svc) {id : String} {edit : Edit} (plain : edit.OfInstances) :
    Fleet.Within svc { w with store.services := Services.modify id (edit.apply w.now) w.store.services } := by
  obtain ⟨⟨s, alone, named, replicas, most⟩, bounded⟩ := within
  refine ⟨⟨_, modify_alone alone, ?_⟩, bounded⟩
  split
  · cases edit with
    | instances _ | addInstance _ | removeInstance _ | promote _ _ => exact ⟨named, replicas, most⟩
    | _ => exact plain.elim
  · exact ⟨named, replicas, most⟩

theorem spares_ofInstances {edit : Edit} (spares : edit.Spares) : edit.OfInstances := by
  cases edit with
  | removeInstance _ | promote _ _ | addInstance _ => trivial
  | _ => exact spares.elim

theorem spare_step {before after : Fleet} {β : Type} {operation : Joint Section Ask β} {value : β}
    (within : before.Within svc) (spare : Spare operation) (uncounted : role = .failover ∨ Tame operation)
    (law : (fleetSystem Fleet.Watched).commits role before operation value after) : after.Within svc ∧ Aside before after := by
  cases operation with
  | first operation =>
    obtain ⟨watched, store, ran, rfl⟩ := law
    cases operation with
    | write id edit =>
      rw [ran.means.2]
      refine ⟨within.write (spares_ofInstances spare), Aside.of_kept (fun name => !edit.drops name) rfl ?_ ?_⟩
      · intro name exists_
        cases edit with
        | removeInstance gone =>
          have other : name ≠ gone := fun same => watched (same ▸ exists_)
          simp [Edit.drops, other]
        | promote _ gone =>
          have other : name ≠ gone := fun same => watched (same ▸ exists_)
          simp [Edit.drops, other]
        | _ => rfl
      · obtain ⟨s, alone, -⟩ := within.alone
        simp only [Fleet.active, alone, modify_alone rfl, List.flatMap_cons, List.flatMap_nil, List.append_nil]
        split
        · exact spares_actives spare before.now s
        · exact List.filter_sublist
    | get _ | list _ =>
      rw [ran.means.2]
      exact ⟨within, .refl before⟩
    | saveServices =>
      obtain ⟨file, rfl⟩ := ran.means
      exact ⟨⟨within.alone, within.bounded⟩, .of_kept (fun _ => true) rfl (fun _ _ => rfl) List.filter_sublist⟩
    | _ => exact spare.elim
  | second operation =>
    obtain ⟨-, made, makes, -, rfl⟩ := law
    have same : made = before.made := by
      unfold Makes at makes
      split at makes
      · rename_i name creates
        rcases uncounted with other | tame
        · cases other
        · cases operation with
          | createLocal | cloneLocal => exact tame.elim
          | post node url call =>
            cases call with
            | create | clone => exact tame.elim
            | _ => cases creates
          | _ => cases creates
      · exact makes
    rw [same]
    exact ⟨within, .refl before⟩

theorem Fleet.Watched.told {w : Fleet} {β : Type} {operation : Ask β} {value : β} {made : List String}
    (watched : w.Watched role (.second operation) value made) (failed : ¬operation.Succeeds value) : made = w.made := by
  cases operation with
  | post node url call =>
    cases call with
    | clone _ name target _ =>
      match target, value with
      | some _, some true => exact absurd rfl failed
      | some _, some false => exact watched failed
      | some _, none => exact watched failed
      | none, _ => exact watched failed
    | _ => exact watched failed
  | createLocal | cloneLocal => exact watched failed
  | _ => exact absurd trivial failed

def Fleet.grown (w : Fleet) (name : String) : Fleet := { w with made := name :: w.made }

theorem creation_step {before after : Fleet} {β : Type} {operation : Ask β} {value : β} {name : String}
    (creates : operation.makes = some name)
    (law : (fleetSystem Fleet.Watched).commits .reconciler before (.second operation) value after) :
    (operation.Succeeds value ∧ before.Watched .reconciler (.second operation) value (name :: before.made) ∧
      after = before.grown name) ∨ (¬operation.Succeeds value ∧ after = before) := by
  obtain ⟨-, made, makes, watched, rfl⟩ := law
  simp only [Makes, creates] at makes
  by_cases succeeds : operation.Succeeds value
  · rcases makes with rfl | ⟨failed, -⟩
    · exact .inl ⟨succeeds, watched, rfl⟩
    · exact absurd succeeds failed
  · rw [watched.told succeeds]
    exact .inr ⟨succeeds, rfl⟩

theorem tameTriple {α : Type} {pre : Fleet → Prop} {program : Pass α} (lasting : Lasting pre) (tame : Keeps Tame program) :
    (fleetRules svc .reconciler).Triple pre program fun _ => pre := by
  refine (Rules.Triple.yields tame lasting.stable ?_).weaken_post fun _ _ _ held => held.2
  intro before β operation value after within holds kind law
  obtain ⟨still, aside⟩ := spare_step within (tame_spare kind) (.inr kind) law
  exact ⟨still, trivial, lasting before after aside holds⟩

theorem queryTriple {α : Type} {pre : Fleet → Prop} {operation : Ask α} (lasting : Lasting pre)
    (tame : Tame (.second operation)) : (fleetRules svc .reconciler).Triple pre (query operation) fun _ => pre :=
  tameTriple lasting (query_keeps tame)

theorem postTriple {pre good : Fleet → Prop} {node : Cluster.Node} {call : Call} (name : String) (still : Lasting pre)
    (last : Lasting good) (creates : ∀ url, (Ask.post node url call).makes = some name)
    (grow : ∀ w url, w.Within svc → pre w →
      w.Watched .reconciler (.second (.post node url call)) (some true) (name :: w.made) →
      (w.grown name).Within svc ∧ good (w.grown name)) (urls : List String) :
    (fleetRules svc .reconciler).Triple pre (postFirst node call urls) fun answer w =>
      if answer = some true then good w else pre w := by
  induction urls with
  | nil => exact .pure none still.stable fun _ _ holds => holds
  | cons url rest ih =>
    refine Rules.Triple.leading (fun answer w => if answer = some true then good w else pre w) still.stable ?_ fun answer => ?_
    · intro before answer after within holds law
      rcases creation_step (creates url) law with ⟨succeeds, watched, rfl⟩ | ⟨failed, rfl⟩
      · obtain rfl : answer = some true := succeeds
        obtain ⟨kept, reached⟩ := grow before url within holds watched
        exact ⟨kept, trivial, reached⟩
      · refine ⟨within, trivial, ?_⟩
        rw [if_neg (show ¬answer = some true from failed)]
        exact holds
    · match answer with
      | some true => exact .pure _ last.stable fun _ _ holds => holds
      | some false => exact .pure _ still.stable fun _ _ holds => holds
      | none => exact ih

end WolfRun
