import WolfStack.WolfRun.Reconcile

/-! How long a lost instance stays with its service. Its stamp may be by the clock of another node:
merging takes stamps over as they are. -/

namespace WolfRun
open Effects

def answer (reply : {β : Type} → Ask β → β) (time : Nat) {β : Type} (store : Store) : Joint Section Ask β → β × Store
  | .first operation => ((operation.run time store).2, (operation.run time store).1)
  | .second operation => (reply operation, store)

def dropLost (service : WolfRunService) (live : List ServiceInstance) : Pass Unit := do
  let now ← query .unixNow
  removeInstances service (abandoned now live)

def instancesOf (store : Store) (id : String) : List ServiceInstance := ((store.services.get id).map WolfRunService.instances).getD []

section
variable (reply : {β : Type} → Ask β → β) (time : Nat) (service : WolfRunService) (live : List ServiceInstance) (store : Store)

def clock : Nat := reply .unixNow

def afterDrop : Store := ((dropLost service live).drive (answer reply time) store).2

/-- No difference of times goes below zero, and a lost instance is dropped more than five minutes
after it was seen. -/
structure Graceful : Prop where
  difference : ∀ i ∈ live, i.status = "lost" → (elapsed (clock reply) i.lastSeen : Int) = (clock reply : Int) - i.lastSeen
  waits : ∀ i ∈ instancesOf store service.id, i.status = "lost" →
    i ∉ instancesOf (afterDrop reply time service live store) service.id → i.lastSeen + 300 < clock reply

end

variable {reply : {β : Type} → Ask β → β} {time now : Nat} {service : WolfRunService} {live : List ServiceInstance} {store : Store}

theorem removeInstances_instances (gone : List ServiceInstance) (store : Store) :
    instancesOf ((removeInstances service gone).drive (answer reply time) store).2 service.id =
      (instancesOf store service.id).filter fun i => decide (∀ j ∈ gone, i.containerName ≠ j.containerName) := by
  induction gone generalizing store with
  | nil => simp [removeInstances]
  | cons inst rest ih =>
    have removed : instancesOf ((removeInstance service.id inst.containerName).first.drive (answer reply time) store).2 service.id =
        (instancesOf store service.id).filter fun i => decide (i.containerName ≠ inst.containerName) := by
      change (((Services.modify service.id (removedInstance inst.containerName) store.services).get service.id).map _).getD [] = _
      rw [Services.get_modify _ _ (removedInstance inst.containerName) fun _ => rfl, if_pos rfl, instancesOf]
      cases store.services.get service.id <;> rfl
    rw [removeInstances, Program.bind_eq, Program.drive_bind, ih, removed, List.filter_filter]
    apply List.filter_congr
    intro i _
    simp only [List.forall_mem_cons, Bool.decide_and, Bool.and_comm]

theorem elapsed_past {lastSeen : Nat} (small : now < 2 ^ 64) (past : lastSeen ≤ now) : elapsed now lastSeen = now - lastSeen := by
  unfold elapsed
  omega

theorem elapsed_difference {lastSeen : Nat} (small : now < 2 ^ 64) (stamped : lastSeen < 2 ^ 64) :
    (elapsed now lastSeen : Int) = (now : Int) - lastSeen ↔ lastSeen ≤ now := by
  unfold elapsed
  omega

theorem afterDrop_instances : instancesOf (afterDrop reply time service live store) service.id =
    (instancesOf store service.id).filter fun i => decide (∀ j ∈ abandoned (clock reply) live, i.containerName ≠ j.containerName) :=
  removeInstances_instances (abandoned (clock reply) live) store

theorem dropped_iff {i : ServiceInstance} (stored : i ∈ instancesOf store service.id) :
    i ∉ instancesOf (afterDrop reply time service live store) service.id ↔
      ∃ j ∈ live, j.status = "lost" ∧ 300 < elapsed (clock reply) j.lastSeen ∧ i.containerName = j.containerName := by
  rw [afterDrop_instances, List.mem_filter, and_iff_right stored, decide_eq_true_eq]
  simp only [abandoned, List.mem_filter, decide_eq_true_eq, not_forall, exists_prop, not_not, and_assoc]

/-- A lost instance has its time exactly where no lost instance is stamped later than now, and
where no other of its name has run out of time. -/
theorem graceful_iff (reply : {β : Type} → Ask β → β) (time : Nat) (service : WolfRunService) (live : List ServiceInstance) (store : Store)
    (small : clock reply < 2 ^ 64) (stamped : ∀ i ∈ live, i.lastSeen < 2 ^ 64) : Graceful reply time service live store ↔
      (∀ i ∈ live, i.status = "lost" → i.lastSeen ≤ clock reply) ∧
        ∀ i ∈ instancesOf store service.id, i.status = "lost" → ∀ j ∈ live, j.status = "lost" → i.containerName = j.containerName →
          j.lastSeen + 300 < clock reply → i.lastSeen + 300 < clock reply := by
  have past : (∀ i ∈ live, i.status = "lost" → (elapsed (clock reply) i.lastSeen : Int) = (clock reply : Int) - i.lastSeen) ↔
      ∀ i ∈ live, i.status = "lost" → i.lastSeen ≤ clock reply :=
    forall₂_congr fun i member => imp_congr_right fun _ => elapsed_difference small (stamped i member)
  constructor
  · intro graceful
    have before := past.mp graceful.difference
    refine ⟨before, fun i stored gone j member lost same late => graceful.waits i stored gone ?_⟩
    refine (dropped_iff stored).mpr ⟨j, member, lost, ?_, same⟩
    rw [elapsed_past small (before j member lost)]
    omega
  · rintro ⟨before, named⟩
    refine ⟨past.mpr before, fun i stored gone dropped => ?_⟩
    obtain ⟨j, member, lost, late, same⟩ := (dropped_iff stored).mp dropped
    rw [elapsed_past small (before j member lost)] at late
    exact named i stored gone j member lost same (by omega)

def atTime (now : Nat) : {β : Type} → Ask β → β
  | _, .nodes => []
  | _, .node _ => none
  | _, .schedule _ => none
  | _, .unixNow => now
  | _, .shortUuid => ""
  | _, .nextWolfnetIp => none
  | _, .wolfnetNetwork => fun _ => false
  | _, .runtimePresent _ => false
  | _, .urls _ => []
  | _, .listLocal .. => []
  | _, .listRemote .. => .unreachable
  | _, .post .. => none
  | _, .createLocal .. => false
  | _, .cloneLocal .. => false
  | _, .attachWolfnet .. => ()
  | _, .startLocal .. => false
  | _, .stopLocal .. => ()
  | _, .destroyLocal .. => ()
  | _, .shouldAttemptRestart _ => false
  | _, .clearRestartBackoff _ => ()
  | _, .pruneRestartBackoff _ => ()

def lostAt (lastSeen : Nat) : ServiceInstance := ⟨"n1", "web-wolfrun-1", none, "lost", lastSeen, false⟩

def storing (live : List ServiceInstance) : Store := ⟨[{ sampleService "web" with instances := live }], [], none, none⟩

theorem graceful_minute : Graceful (atTime 1000) 1000 (sampleService "web") [lostAt 940] (storing [lostAt 940]) := by
  refine (graceful_iff (atTime 1000) 1000 (sampleService "web") [lostAt 940] (storing [lostAt 940]) (by decide) (by decide)).mpr ⟨by decide, ?_⟩
  decide

/-- One that another node has seen ten seconds from now is dropped at once. -/
theorem graceful_ahead : ¬Graceful (atTime 1000) 1000 (sampleService "web") [lostAt 1010] (storing [lostAt 1010]) := by
  intro graceful
  exact absurd (graceful.waits (lostAt 1010) (by decide) rfl (by decide)) (by decide)

end WolfRun
