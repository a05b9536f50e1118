import WolfStack.WolfRun.State

/-! A ledger of the containers that every service has, by what was added and removed. Each
section does to the services what it does to the ledger, but for the one that puts back
instances that were looked up. -/

namespace WolfRun

def record (i : ServiceInstance) : String × String := (i.nodeId, i.containerName)

def records (s : WolfRunService) : List (String × String) := s.instances.map record

structure Account where
  id : String
  clusterName : String
  records : List (String × String)
deriving DecidableEq

def account (s : WolfRunService) : Account := ⟨s.id, s.clusterName, records s⟩

abbrev Ledger := List Account

namespace Ledger

def amend (id : String) (change : List (String × String) → List (String × String)) : Ledger → Ledger
  | [] => []
  | a :: rest => if a.id = id then { a with records := change a.records } :: rest else a :: amend id change rest

def close (id : String) : Ledger → Ledger
  | [] => []
  | a :: rest => if a.id = id then rest else a :: close id rest

def booked : Edit → List (String × String) → List (String × String)
  | .addInstance inst, known => known ++ [record inst]
  | .removeInstance name, known => known.filter fun r => r.2 ≠ name
  | .promote _ failed, known => known.filter fun r => r.2 ≠ failed
  | _, known => known

theorem amend_same (id : String) (ledger : Ledger) : amend id (fun known => known) ledger = ledger := by
  induction ledger with
  | nil => rfl
  | cons a rest ih =>
    rw [amend, ih]
    split <;> rfl

def moved (oldNode newNode : String) (r : String × String) : String × String :=
  if r.1 = oldNode then (newNode, r.2) else r

def after (ledger : Ledger) : {β : Type} → Section β → Ledger
  | _, .removeFirst id => close id ledger
  | _, .removeAll id => ledger.filter fun a => a.id ≠ id
  | _, .replaceClusters clusters accepted => ledger.filter (fun a => a.clusterName ∉ clusters) ++ accepted.map account
  | _, .push svc => ledger ++ [account svc]
  | _, .write id edit => amend id (booked edit) ledger
  | _, .remap oldNode newNode =>
    if oldNode = newNode ∨ oldNode = "" then ledger
    else ledger.map fun a => { a with records := a.records.map (moved oldNode newNode) }
  | _, _ => ledger

end Ledger

theorem removeFirst_accounts (id : String) (services : Services) :
    (Services.removeFirst id services).map account = Ledger.close id (services.map account) := by
  induction services with
  | nil => rfl
  | cons first rest ih =>
    simp only [Services.removeFirst, List.map_cons, Ledger.close]
    by_cases here : first.id = id
    · rw [if_pos here, if_pos (show (account first).id = id from here)]
    · rw [if_neg here, if_neg (show ¬(account first).id = id from here), List.map_cons, ih]

theorem modify_accounts (id : String) {change : WolfRunService → WolfRunService}
    {book : List (String × String) → List (String × String)}
    (booked : ∀ s, account (change s) = { account s with records := book (records s) }) (services : Services) :
    (Services.modify id change services).map account = Ledger.amend id book (services.map account) := by
  induction services with
  | nil => rfl
  | cons first rest ih =>
    simp only [Services.modify, List.map_cons, Ledger.amend]
    by_cases here : first.id = id
    · rw [if_pos here, if_pos (show (account first).id = id from here), List.map_cons, booked]
      rfl
    · rw [if_neg here, if_neg (show ¬(account first).id = id from here), List.map_cons, ih]

theorem activated_records (containerName : String) (now : Nat) (instances : List ServiceInstance) :
    (activated containerName now instances).map record = instances.map record := by
  induction instances with
  | nil => rfl
  | cons first rest ih =>
    rw [activated]
    split
    · rfl
    · rw [List.map_cons, ih, List.map_cons]

theorem filter_records (name : String) (instances : List ServiceInstance) :
    (instances.filter fun i => i.containerName ≠ name).map record = (instances.map record).filter fun r => r.2 ≠ name := by
  rw [List.filter_map]
  rfl

def Edit.Rewrites : Edit → Prop
  | .instances _ => True
  | _ => False

theorem edit_accounts {edit : Edit} (plain : ¬edit.Rewrites) (now : Nat) (s : WolfRunService) :
    account (edit.apply now s) = { account s with records := Ledger.booked edit (records s) } := by
  cases edit with
  | scale _ | settings _ | image _ => rfl
  | instances _ => exact absurd trivial plain
  | addInstance inst =>
    simp only [Edit.apply, addedInstance, account, records, Ledger.booked, List.map_append, List.map_cons, List.map_nil]
  | removeInstance name =>
    simp only [Edit.apply, removedInstance, account, records, Ledger.booked, filter_records]
  | promote standby failed =>
    simp only [Edit.apply, promoted, account, records, Ledger.booked, filter_records, activated_records]

/-- Putting back what was looked up leaves the ledger right exactly where the service
still has the instances that were looked up. -/
theorem rewrite_accounts_iff (id : String) (live : List ServiceInstance) (now : Nat) (services : Services) :
    (Services.modify id (withInstances live now) services).map account = services.map account ↔
      ∀ s, services.get id = some s → live.map record = records s := by
  induction services with
  | nil => exact iff_of_true rfl fun _ found => by cases found
  | cons first rest ih =>
    rw [Services.modify, Services.get, List.find?_cons]
    by_cases here : first.id = id
    · simp only [here, if_true, decide_true, Option.some.injEq, forall_eq', List.map_cons, List.cons.injEq, and_true]
      simp [account, withInstances, records, here]
    · simp only [here, if_false, decide_false, List.map_cons, List.cons.injEq, true_and]
      exact ih

theorem remapped_record (oldNode newNode : String) (i : ServiceInstance) :
    record (remappedInstance oldNode newNode i) = Ledger.moved oldNode newNode (record i) := by
  unfold remappedInstance Ledger.moved record
  split
  · rfl
  · rfl

theorem remap_accounts (oldNode newNode : String) (services : Services) :
    (remapNodeId oldNode newNode services).map account =
      Ledger.after (services.map account) (.remap oldNode newNode) := by
  rw [remapNodeId, Ledger.after]
  split
  · rfl
  · simp only [List.map_map]
    apply List.map_congr_left
    intro s _
    simp [account, records, Function.comp_def, remapped_record]

def Section.Rewrites : {β : Type} → Section β → Prop
  | _, .write _ edit => edit.Rewrites
  | _, _ => False

theorem section_accounts {now : Nat} {s after : Store} {β : Type} {operation : Section β} {value : β}
    (plain : ¬operation.Rewrites) (means : operation.Means now s value after) :
    after.services.map account = Ledger.after (s.services.map account) operation := by
  cases operation with
  | removeFirst id => rw [means.2]; exact removeFirst_accounts id s.services
  | removeAll id =>
    rw [means.2, Ledger.after, List.filter_map]
    rfl
  | replaceClusters clusters accepted =>
    rw [show after = _ from means, Ledger.after, List.filter_map]
    exact List.map_append
  | push svc =>
    rw [show after = _ from means]
    exact List.map_append
  | write id edit =>
    rw [means.2]
    exact modify_accounts id (edit_accounts plain now) s.services
  | remap oldNode newNode =>
    rw [means.2]
    exact remap_accounts oldNode newNode s.services
  | partition _ | list _ | get _ =>
    rw [means.2]
    rfl
  | insertTombstone _ =>
    obtain ⟨order, -, rfl⟩ := means
    rfl
  | saveServices | saveTombstones =>
    obtain ⟨file, rfl⟩ := means
    rfl

end WolfRun
