import WolfStack.Effects.Program
import WolfStack.WolfRun.Service

/-! The WolfRun state of one node: the services and the deletion tombstones, each behind
a lock of its own, and the files they are saved to. An operation is a program over the
sections that hold one lock; the failover events are left out. -/

namespace WolfRun
open Effects
open Effects.Program (send)

abbrev Tombstones := List (String × Nat)

def tombstoneRetentionSecs : Nat := 30 * 24 * 3600

def tombstoneMax : Nat := 500

namespace Tombstones

def contains (deleted : Tombstones) (id : String) : Bool := deleted.any fun d => d.1 = id

/-- `HashMap::insert`. -/
def insert (deleted : Tombstones) (id : String) (now : Nat) : Tombstones :=
  (id, now) :: deleted.filter fun d => d.1 ≠ id

def Live (now : Nat) (d : String × Nat) : Prop := now - d.2 < tombstoneRetentionSecs

instance (now : Nat) (d : String × Nat) : Decidable (Live now d) :=
  inferInstanceAs (Decidable (now - d.2 < tombstoneRetentionSecs))

def older (first second : String × Nat) : String × Nat := if second.2 < first.2 then second else first

/-- `min_by_key`: the first of the oldest. -/
def oldest : Tombstones → Option (String × Nat)
  | [] => none
  | d :: rest => some (rest.foldl older d)

/-- The loop that drops the oldest past the cap; it ends within as many turns as there
are tombstones. -/
def cap : Nat → Tombstones → Tombstones
  | 0, deleted => deleted
  | turns + 1, deleted =>
    if tombstoneMax < deleted.length then
      match oldest deleted with
      | some d => cap turns (deleted.filter fun other => other.1 ≠ d.1)
      | none => deleted
    else deleted

/-- `prune_tombstones`. -/
def prune (now : Nat) (deleted : Tombstones) : Tombstones :=
  let kept := deleted.filter (Live now)
  cap kept.length kept

private theorem foldl_older_mem (d : String × Nat) (rest : Tombstones) : rest.foldl older d ∈ d :: rest := by
  induction rest generalizing d with
  | nil => exact List.mem_cons_self
  | cons next rest ih =>
    have step := ih (older d next)
    rw [List.foldl_cons]
    rcases List.mem_cons.mp step with here | later
    · rw [here]
      unfold older
      split <;> simp
    · exact List.mem_cons_of_mem _ (List.mem_cons_of_mem _ later)

theorem oldest_mem {deleted : Tombstones} {d : String × Nat} (found : deleted.oldest = some d) : d ∈ deleted := by
  cases deleted with
  | nil => cases found
  | cons first rest =>
    cases found
    exact foldl_older_mem first rest

theorem length_cap_le (turns : Nat) {deleted : Tombstones} (enough : deleted.length ≤ tombstoneMax + turns) :
    (deleted.cap turns).length ≤ tombstoneMax := by
  induction turns generalizing deleted with
  | zero => exact enough
  | succ turns ih =>
    rw [cap]
    split
    · split
      · rename_i many d found
        apply ih
        have fewer : (deleted.filter fun other => other.1 ≠ d.1).length < deleted.length := by
          apply List.length_filter_lt_length_iff_exists.mpr
          exact ⟨d, oldest_mem found, by simp⟩
        omega
      · rename_i many none_
        cases deleted with
        | nil => simp
        | cons first rest => cases none_
    · rename_i few
      omega

theorem length_prune_le (now : Nat) (deleted : Tombstones) : (deleted.prune now).length ≤ tombstoneMax :=
  length_cap_le _ (Nat.le_add_left _ _)

theorem cap_few (turns : Nat) {deleted : Tombstones} (few : deleted.length ≤ tombstoneMax) : deleted.cap turns = deleted := by
  cases turns with
  | zero => rfl
  | succ turns => rw [cap, if_neg (Nat.not_lt.mpr few)]

theorem prune_few {now : Nat} {deleted : Tombstones} (few : (deleted.filter (Live now)).length ≤ tombstoneMax) :
    deleted.prune now = deleted.filter (Live now) :=
  cap_few _ few

theorem mem_cap (turns : Nat) {deleted : Tombstones} {d : String × Nat} (member : d ∈ deleted.cap turns) : d ∈ deleted := by
  induction turns generalizing deleted with
  | zero => exact member
  | succ turns ih =>
    rw [cap] at member
    split at member
    · split at member
      · exact List.mem_of_mem_filter (ih member)
      · exact member
    · exact member

theorem mem_prune {now : Nat} {deleted : Tombstones} {d : String × Nat} (member : d ∈ deleted.prune now) : d ∈ deleted :=
  List.mem_of_mem_filter (mem_cap _ member)

theorem contains_iff {deleted : Tombstones} {id : String} : deleted.contains id = true ↔ ∃ time, (id, time) ∈ deleted := by
  simp [contains]

theorem mem_insert {deleted : Tombstones} {id : String} {now : Nat} {d : String × Nat} :
    d ∈ deleted.insert id now ↔ d = (id, now) ∨ (d ∈ deleted ∧ d.1 ≠ id) := by
  simp [insert]

end Tombstones

inductive Section : Type → Type where
  | removeFirst (id : String) : Section (Option WolfRunService)
  | removeAll (id : String) : Section Bool
  | partition (sent : Services) : Section (Services × Services)
  | replaceClusters (clusters : List String) (accepted : Services) : Section Unit
  | list (cluster : Option String) : Section Services
  | get (id : String) : Section (Option WolfRunService)
  | push (svc : WolfRunService) : Section Unit
  | write (id : String) (edit : Edit) : Section Bool
  | remap (oldNode newNode : String) : Section Nat
  | insertTombstone (id : String) : Section Unit
  | saveServices : Section Unit
  | saveTombstones : Section Unit

/-- A file is `none` when it is missing or does not parse. -/
structure Store where
  services : Services
  deleted : Tombstones
  servicesJson : Option Services
  deletedJson : Option Tombstones

inductive Saved {α : Type} (content : α) (before : Option α) : Option α → Prop
  | written : Saved content before (some content)
  | failed : Saved content before before
  | torn : Saved content before none

open Section in
/-- What one section does at a time of day. The iteration order of a map that has
changed is anything. -/
inductive Section.Runs (now : Nat) : Store → {β : Type} → Section β → β → Store → Prop
  | removeFirst {s id} :
      Runs now s (removeFirst id) (s.services.get id) { s with services := Services.removeFirst id s.services }
  | removeAll {s id} :
      Runs now s (removeAll id) (s.services.any fun svc => svc.id = id) { s with services := s.services.removeAll id }
  | partition {s sent} :
      Runs now s (partition sent) (sent.partition fun svc => s.deleted.contains svc.id) s
  | replaceClusters {s clusters accepted} :
      Runs now s (replaceClusters clusters accepted) () { s with services := s.services.replaceClusters clusters accepted }
  | list {s cluster} : Runs now s (list cluster) (s.services.listed cluster) s
  | get {s id} : Runs now s (get id) (s.services.get id) s
  | push {s svc} : Runs now s (push svc) () { s with services := s.services ++ [svc] }
  | write {s id edit} :
      Runs now s (write id edit) (s.services.get id).isSome
        { s with services := Services.modify id (edit.apply now) s.services }
  | remap {s oldNode newNode} :
      Runs now s (remap oldNode newNode) (s.services.recordedOn oldNode)
        { s with services := remapNodeId oldNode newNode s.services }
  | insertTombstone {s id} {order : Tombstones} (same : order.Perm (s.deleted.insert id now)) :
      Runs now s (insertTombstone id) () { s with deleted := order.prune now }
  | saveServices {s file} (saved : Saved s.services s.servicesJson file) :
      Runs now s saveServices () { s with servicesJson := file }
  | saveTombstones {s file} (saved : Saved s.deleted s.deletedJson file) :
      Runs now s saveTombstones () { s with deletedJson := file }

def Section.Means (now : Nat) (s : Store) : {β : Type} → Section β → β → Store → Prop
  | _, .removeFirst id, value, after =>
    value = s.services.get id ∧ after = { s with services := Services.removeFirst id s.services }
  | _, .removeAll id, value, after =>
    value = (s.services.any fun svc => svc.id = id) ∧ after = { s with services := s.services.removeAll id }
  | _, .partition sent, value, after => value = (sent.partition fun svc => s.deleted.contains svc.id) ∧ after = s
  | _, .replaceClusters clusters accepted, _, after =>
    after = { s with services := s.services.replaceClusters clusters accepted }
  | _, .list cluster, value, after => value = s.services.listed cluster ∧ after = s
  | _, .get id, value, after => value = s.services.get id ∧ after = s
  | _, .push svc, _, after => after = { s with services := s.services ++ [svc] }
  | _, .write id edit, value, after =>
    value = (s.services.get id).isSome ∧ after = { s with services := Services.modify id (edit.apply now) s.services }
  | _, .remap oldNode newNode, value, after =>
    value = s.services.recordedOn oldNode ∧ after = { s with services := remapNodeId oldNode newNode s.services }
  | _, .insertTombstone id, _, after =>
    ∃ order : Tombstones, order.Perm (s.deleted.insert id now) ∧ after = { s with deleted := order.prune now }
  | _, .saveServices, _, after => ∃ file, after = { s with servicesJson := file }
  | _, .saveTombstones, _, after => ∃ file, after = { s with deletedJson := file }

theorem Section.Runs.means {now : Nat} {s after : Store} {β : Type} {operation : Section β} {value : β}
    (ran : operation.Runs now s value after) : operation.Means now s value after := by
  cases ran with
  | removeFirst | removeAll | partition | list | get | write | remap => exact ⟨rfl, rfl⟩
  | replaceClusters | push => exact rfl
  | insertTombstone same => exact ⟨_, same, rfl⟩
  | saveServices _ => exact ⟨_, rfl⟩
  | saveTombstones _ => exact ⟨_, rfl⟩

/-- A section as it usually goes: saves work, and the map keeps its order. -/
def Section.run (now : Nat) (s : Store) : {β : Type} → Section β → Store × β
  | _, .removeFirst id => ({ s with services := Services.removeFirst id s.services }, s.services.get id)
  | _, .removeAll id => ({ s with services := s.services.removeAll id }, s.services.any fun svc => svc.id = id)
  | _, .partition sent => (s, sent.partition fun svc => s.deleted.contains svc.id)
  | _, .replaceClusters clusters accepted => ({ s with services := s.services.replaceClusters clusters accepted }, ())
  | _, .list cluster => (s, s.services.listed cluster)
  | _, .get id => (s, s.services.get id)
  | _, .push svc => ({ s with services := s.services ++ [svc] }, ())
  | _, .write id edit => ({ s with services := Services.modify id (edit.apply now) s.services }, (s.services.get id).isSome)
  | _, .remap oldNode newNode =>
    ({ s with services := remapNodeId oldNode newNode s.services }, s.services.recordedOn oldNode)
  | _, .insertTombstone id => ({ s with deleted := (s.deleted.insert id now).prune now }, ())
  | _, .saveServices => ({ s with servicesJson := some s.services }, ())
  | _, .saveTombstones => ({ s with deletedJson := some s.deleted }, ())

theorem Section.run_runs (now : Nat) (s : Store) {β : Type} (operation : Section β) :
    operation.Runs now s (operation.run now s).2 (operation.run now s).1 := by
  cases operation with
  | removeFirst id => exact .removeFirst
  | removeAll id => exact .removeAll
  | partition sent => exact .partition
  | replaceClusters clusters accepted => exact .replaceClusters
  | list cluster => exact .list
  | get id => exact .get
  | push svc => exact .push
  | write id edit => exact .write
  | remap oldNode newNode => exact .remap
  | insertTombstone id => exact .insertTombstone (.refl _)
  | saveServices => exact .saveServices .written
  | saveTombstones => exact .saveTombstones .written

/-- `WolfRunState::new` on what the files hold. -/
inductive Store.Restarts (now : Nat) (before : Store) : Store → Prop
  | loaded {order : Tombstones} (same : order.Perm (before.deletedJson.getD [])) :
      Restarts now before { before with services := before.servicesJson.getD [], deleted := order.prune now }

def recordTombstone (id : String) : Program Section Unit := do
  send (.insertTombstone id)
  send .saveTombstones

def delete (id : String) : Program Section (Option WolfRunService) := do
  match ← send (.removeFirst id) with
  | some removed =>
    send .saveServices
    recordTombstone id
    return some removed
  | none => return none

def removeIfExists (id : String) : Program Section Bool := do
  let removed ← send (.removeAll id)
  if removed then
    send .saveServices
    recordTombstone id
    return true
  else
    recordTombstone id
    return false

/-- The clusters are those of the whole payload, before anything is filtered out. -/
def mergeFromPeer (sent : Services) : Program Section (List String) := do
  if sent = [] then return []
  else
    let (rejected, accepted) ← send (.partition sent)
    send (.replaceClusters (sent.map WolfRunService.clusterName) accepted)
    send .saveServices
    return rejected.map WolfRunService.id

def edited (id : String) (edit : Edit) : Program Section Bool := do
  if ← send (.write id edit) then
    send .saveServices
    return true
  else return false

def scale (id : String) (replicas : Nat) : Program Section Bool := edited id (.scale replicas)

def updateSettings (id : String) (settings : ServiceSettingsUpdate) : Program Section Bool := edited id (.settings settings)

def updateImage (id image : String) : Program Section Bool := edited id (.image image)

def touched (id : String) (edit : Edit) : Program Section Unit := do
  let _ ← send (.write id edit)
  send .saveServices

def updateInstances (id : String) (instances : List ServiceInstance) : Program Section Unit :=
  touched id (.instances instances)

def addInstance (id : String) (inst : ServiceInstance) : Program Section Unit := touched id (.addInstance inst)

def removeInstance (id containerName : String) : Program Section Unit := touched id (.removeInstance containerName)

def remapNode (oldNode newNode : String) : Program Section Nat := do
  if oldNode = newNode ∨ oldNode = "" then return 0
  else
    let moved ← send (.remap oldNode newNode)
    if 0 < moved then send .saveServices
    return moved

end WolfRun
