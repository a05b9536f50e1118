import WolfStack.WolfHa.PveReceive
import WolfStack.WolfHa.Roles
import WolfStack.Effects.Steps

/-! A standby receives a Proxmox container's rounds, one stream for each dataset. Requests
overlap, and any of them may stop at any point. When is a copy that may be promoted one instant? -/

namespace WolfHa
open ZfsSend Effects

/-- A request that was let in, with the datasets of the round it belongs to. -/
structure InFlight where
  form : ZfsForm
  plan : PveReceivePlan
  round : List String
  received : Bool
  deriving DecidableEq, Repr

structure PveStandby where
  node : PveNode
  now : Nat
  flight : List InFlight
  /-- The snapshot that a dataset's last stream brought in full, unless something else has
  changed the dataset since. -/
  brought : String → Option String
  /-- The datasets of the round whose stream was recorded last. -/
  lastRound : List String

inductive StandbyEvent where
  /-- A request reaches its stream part, and is let in or refused. -/
  | prepare (form : ZfsForm) (round : List String) (destroyed : Except String Unit)
  /-- The sender streams what the request names, out of the snapshots it has of the dataset. -/
  | receive (request : Nat) (source : List Snap) (cut : Option Nat)
  | commit (request : Nat) (fates : PveNode.CommitFates)
  | quit (request : Nat)
  | promote (me : Option HaPeer) (replicas : List HaPeer)
  | demote (newPrimary : HaPeer)
  /-- A primary fences itself, or finds that it may go on. -/
  | fence (stale : Bool)
  /-- A round of this node's own, as the primary. -/
  | snapshot (datasets : List String) (snap : Snap)
  | remove (destroyed : List String)
  | advance (seconds : Nat)

namespace PveStandby
variable (vmid : String) (s : PveStandby)

def entry : Option HaEntry := s.node.store.get vmid

def modifyEntry (change : HaEntry → HaEntry) : PveStandby :=
  { s with node := { s.node with store := s.node.store.modify vmid change } }

def isPrimary : Bool := (s.entry vmid).any fun e => e.role = .primary

def moved (node : PveNode) : PveStandby :=
  { s with node, brought := fun ds => if node.pool ds = s.node.pool ds then s.brought ds else none }

def bring (plan : PveReceivePlan) : PveStandby :=
  { s with brought := Function.update s.brought plan.dataset (some plan.snapshot) }

/-- The node after a request's pruning, which spares what the request's own stream brought. -/
def finished (plan : PveReceivePlan) (node : PveNode) : PveStandby :=
  if s.brought plan.dataset = some plan.snapshot then (s.moved node).bring plan else s.moved node

def step : StandbyEvent → Option PveStandby
  | .prepare form round destroyed =>
    if (PveNode.asked form).vmid ≠ vmid then
      none
    else
      match s.node.pvePrepareReceive form destroyed with
      | (prepared, .error _) => some (s.moved prepared)
      | (prepared, .ok plan) => some { s.moved prepared with flight := ⟨form, plan, round, false⟩ :: s.flight }
  | .receive request source cut =>
    match s.flight[request]? with
    | none => none
    | some r =>
      if r.received then
        none
      else
        match send source r.plan.base r.plan.snapshot with
        | none => some { s with flight := s.flight.eraseIdx request }
        | some stream =>
          match s.node.zfsReceive r.plan stream cut with
          | (received, false) => some { s.moved received with flight := s.flight.eraseIdx request }
          | (received, true) =>
            some { (s.moved received).bring r.plan with flight := s.flight.set request { r with received := true } }
  | .commit request fates =>
    match s.flight[request]? with
    | none => none
    | some r =>
      if !r.received then
        none
      else
        match s.node.pveCommitReceive r.form r.plan s.now fates with
        | (recorded, .error _) => some { s.finished r.plan recorded with flight := s.flight.eraseIdx request }
        | (recorded, .ok ()) =>
          some { s.finished r.plan recorded with flight := s.flight.eraseIdx request, lastRound := r.round }
  | .quit request => some { s with flight := s.flight.eraseIdx request }
  | .promote me replicas =>
    match s.entry vmid with
    | none => none
    | some e =>
      if e.role = .primary ∧ e.stale = false then none else some (s.modifyEntry vmid (promotedEntry me replicas))
  | .demote newPrimary => some { s with node := { s.node with store := demotedStore s.node.store vmid newPrimary } }
  | .fence stale => if s.isPrimary vmid then some (s.modifyEntry vmid fun e => { e with stale }) else none
  | .snapshot datasets snap =>
    if s.isPrimary vmid then
      some (s.moved { s.node with
        pool := fun ds => if ds ∈ datasets then (s.node.pool ds).map (· ++ [snap]) else s.node.pool ds })
    else none
  | .remove destroyed =>
    some (s.moved { s.node with
      store := s.node.store.remove vmid
      pool := fun ds => if ds ∈ destroyed then none else s.node.pool ds })
  | .advance seconds => some { s with now := s.now + seconds }

/-! ### What is to hold -/

/-- How old a copy may be: six intervals, and half an hour at the least. -/
def maxAge (entry : HaEntry) : Nat := max (max entry.intervalMinutes 1 * 60 * 6) 1800

def Promotable : Prop :=
  ∃ e, s.entry vmid = some e ∧ e.role = .replica ∧ e.stale = false ∧ s.now - e.lastDeltaAt ≤ maxAge e

def standsAt (dataset : String) : Option String := (s.node.listOurs dataset vmid).getLast?

def copy : List String := ((s.entry vmid).map (·.zfsDatasets)).getD [] ++ s.lastRound

def AtOne : Prop := ∃ snapshot, ∀ dataset ∈ s.copy vmid, s.standsAt vmid dataset = some snapshot

/-- Where the copy may be promoted, no full stream clears a dataset of it. -/
def FitsPrepare (form : ZfsForm) : Prop :=
  s.Promotable vmid → ∀ plan, s.node.receiveGate form = .ok plan → plan.base = none →
    s.node.datasetExists plan.dataset = true →
    ∀ dataset ∈ s.copy vmid, dataset ≠ plan.dataset ∧ startsWith dataset (plan.dataset ++ "/") = false

/-- Where the copy may be promoted and has another dataset, no snapshot of ours arrives. -/
def FitsReceive (r : InFlight) (source : List Snap) (cut : Option Nat) : Prop :=
  s.Promotable vmid → r.plan.dataset ∈ s.copy vmid →
    (∀ stream ∈ send source r.plan.base r.plan.snapshot, ours (stream.arrived cut) vmid = []) ∨
      ∀ dataset ∈ s.copy vmid, dataset = r.plan.dataset

/-- Which datasets a request is about: its own, those its round has, and those that the
entry lists once the request's settings are in. -/
def concerned (r : InFlight) : List String :=
  r.plan.dataset :: PveNode.listed r.form (((s.entry vmid).map (·.zfsDatasets)).getD []) ++ r.round

/-- On a standby, a request is recorded only after every stream of its round has arrived,
and what it prunes around on a copy that may be promoted is what arrived last. -/
def FitsCommit (r : InFlight) (fates : PveNode.CommitFates) : Prop :=
  s.isPrimary vmid = false →
    (s.Promotable vmid → r.plan.dataset ∈ s.copy vmid → s.brought r.plan.dataset = some r.plan.snapshot) ∧
      (Auth.trim r.form.config = "" ∨ fates.configWritten = .ok () → fates.saved = .ok () →
        ∀ dataset ∈ s.concerned vmid r, s.brought dataset = some r.plan.snapshot)

def Fits : StandbyEvent → Prop
  | .prepare form _ (.ok ()) => s.FitsPrepare vmid form
  | .receive request source cut => ∀ r ∈ s.flight[request]?, s.FitsReceive vmid r source cut
  | .commit request fates => ∀ r ∈ s.flight[request]?, r.received = true → s.FitsCommit vmid r fates
  | _ => True

instance : Decidable (s.Promotable vmid) :=
  decidable_of_iff (∃ e ∈ s.entry vmid, e.role = .replica ∧ e.stale = false ∧ s.now - e.lastDeltaAt ≤ maxAge e) Iff.rfl

instance : (event : StandbyEvent) → Decidable (s.Fits vmid event)
  | .prepare form _ (.ok ()) => by
    change Decidable (s.FitsPrepare vmid form)
    delta FitsPrepare
    infer_instance
  | .receive request source cut => by
    change Decidable (∀ r ∈ s.flight[request]?, s.FitsReceive vmid r source cut)
    delta FitsReceive
    infer_instance
  | .commit request fates => by
    change Decidable (∀ r ∈ s.flight[request]?, r.received = true → s.FitsCommit vmid r fates)
    delta FitsCommit
    infer_instance
  | .prepare _ _ (.error _) | .quit _ | .promote _ _ | .demote _ | .fence _ | .snapshot _ _ | .remove _ | .advance _ =>
    isTrue trivial

structure Begun : Prop where
  none_ : s.entry vmid = none
  idle : s.flight = []
  untouched : ∀ dataset, s.brought dataset = none

/-- What a stream brought, and nothing has changed since, is what the dataset stands at. -/
def Known : Prop := ∀ dataset snapshot, s.brought dataset = some snapshot → s.standsAt vmid dataset = some snapshot

structure Kept : Prop where
  own : ∀ r ∈ s.flight, r.plan.vmid = vmid ∧ isOurs r.plan.snapshot vmid = true
  known : s.Known vmid
  atOne : s.Promotable vmid → s.AtOne vmid

variable {vmid} {s} {after : PveStandby} {r : InFlight}

theorem promotable_before (entry : after.entry vmid = s.entry vmid) (later : s.now ≤ after.now)
    (promotable : after.Promotable vmid) : s.Promotable vmid := by
  obtain ⟨e, held, role, fresh, age⟩ := promotable
  exact ⟨e, entry.symm.trans held, role, fresh, by omega⟩

theorem atOne_same (copy : after.copy vmid = s.copy vmid)
    (stands : ∀ dataset ∈ s.copy vmid, after.standsAt vmid dataset = s.standsAt vmid dataset) (atOne : s.AtOne vmid) :
    after.AtOne vmid := by
  obtain ⟨snapshot, all⟩ := atOne
  refine ⟨snapshot, fun dataset member => ?_⟩
  rw [copy] at member
  rw [stands dataset member]
  exact all dataset member

theorem standsAt_pool {dataset : String} (pool : after.node.pool dataset = s.node.pool dataset) :
    after.standsAt vmid dataset = s.standsAt vmid dataset := by
  simp only [standsAt, PveNode.listOurs, pool]

theorem not_promotable_primary (primary : s.isPrimary vmid = true) : ¬s.Promotable vmid := by
  intro ⟨e, held, role, _⟩
  unfold isPrimary at primary
  rw [held] at primary
  simp [role] at primary

theorem Known.moved {node : PveNode} (known : s.Known vmid) : (s.moved node).Known vmid := by
  intro dataset snapshot brought
  unfold PveStandby.moved at brought
  dsimp only at brought
  split at brought
  · rename_i same
    rw [standsAt_pool (s := s) same]
    exact known dataset snapshot brought
  · exact absurd brought nofun

theorem Known.bring {plan : PveReceivePlan} (known : s.Known vmid)
    (stands : s.standsAt vmid plan.dataset = some plan.snapshot) : (s.bring plan).Known vmid := by
  intro dataset snapshot brought
  by_cases here : dataset = plan.dataset
  · subst here
    have same : (s.bring plan).brought plan.dataset = some plan.snapshot := Function.update_self ..
    exact stands.trans (same.symm.trans brought)
  · have same : (s.bring plan).brought dataset = s.brought dataset := Function.update_of_ne here ..
    exact known dataset snapshot (same.symm.trans brought)

theorem finished_eq (plan : PveReceivePlan) (node : PveNode) :
    ∃ brought, s.finished plan node = { s with node, brought } := by
  unfold finished
  split <;> exact ⟨_, rfl⟩

theorem Kept.prepared {form : ZfsForm} {destroyed : Except String Unit} (kept : s.Kept vmid)
    (fits : destroyed = .ok () → s.FitsPrepare vmid form)
    (node : after.node = (s.node.pvePrepareReceive form destroyed).1) (now : after.now = s.now)
    (lastRound : after.lastRound = s.lastRound) : after.Promotable vmid → after.AtOne vmid := by
  have entry : after.entry vmid = s.entry vmid := by
    simp only [entry, node, PveNode.store_prepare]
  have copy : after.copy vmid = s.copy vmid := by simp only [copy, entry, lastRound]
  intro promotable
  have before := promotable_before entry (Nat.le_of_eq now.symm) promotable
  refine atOne_same copy (fun dataset member => standsAt_pool ?_) (kept.atOne before)
  rw [node]
  rcases s.node.prepare_cases form destroyed with same | ⟨plan, passed, full, present, ok, same⟩
  · rw [same]
  · rw [same]
    obtain ⟨other, outside⟩ := fits ok before plan passed full present dataset member
    simp [PveNode.destroyDataset, other, outside]

theorem Kept.prepare {form : ZfsForm} {round : List String} {destroyed : Except String Unit} (kept : s.Kept vmid)
    (fits : s.Fits vmid (.prepare form round destroyed))
    (stepped : s.step vmid (.prepare form round destroyed) = some after) : after.Kept vmid := by
  have good : destroyed = .ok () → s.FitsPrepare vmid form := by
    rintro rfl
    exact fits
  simp only [step] at stepped
  split at stepped
  · exact absurd stepped nofun
  · rename_i asked
    split at stepped
    · rename_i prepared e result
      obtain rfl := Option.some.inj stepped
      exact ⟨kept.own, kept.known.moved, kept.prepared good (by rw [result]; rfl) rfl rfl⟩
    · rename_i prepared plan result
      obtain rfl := Option.some.inj stepped
      refine ⟨fun r member => ?_, kept.known.moved, kept.prepared good (by rw [result]; rfl) rfl rfl⟩
      rcases List.mem_cons.mp member with rfl | before
      · have passed : s.node.receiveGate form = .ok plan := PveNode.prepare_passed destroyed (by rw [result])
        obtain ⟨rfl, _, _, _, _, mine, _⟩ := PveNode.fieldsGate_ok.mp (PveNode.receiveGate_ok.mp passed).1
        have same := not_not.mp asked
        exact ⟨same, same ▸ mine⟩
      · exact kept.own r before

theorem listOurs_append {list more : List Snap} : ours (list ++ more) vmid = ours list vmid ++ ours more vmid :=
  List.filter_append ..

theorem standsAt_received {stream : Stream} {cut : Option Nat} {snapshot : String}
    (node : after.node = (s.node.zfsReceive r.plan stream cut).1)
    (stands : s.standsAt vmid r.plan.dataset = some snapshot) :
    ∃ later, after.standsAt vmid r.plan.dataset = some later ∧ (ours (stream.arrived cut) vmid = [] → later = snapshot) := by
  have held : after.node.pool r.plan.dataset = (receive (s.node.pool r.plan.dataset) stream cut).1 := by
    rw [node]
    exact PveNode.pool_setDataset ..
  unfold standsAt PveNode.listOurs at *
  rw [held]
  cases present : s.node.pool r.plan.dataset with
  | none =>
    rw [present] at stands
    exact absurd stands nofun
  | some list =>
    rw [present, Option.getD_some] at stands
    unfold receive
    cases stream.base with
    | none => exact ⟨snapshot, stands, fun _ => rfl⟩
    | some base =>
      dsimp only
      split
      · rw [Option.getD_some, listOurs_append, List.map_append, List.getLast?_append, stands]
        cases arrived : ours (stream.arrived cut) vmid with
        | nil => exact ⟨snapshot, rfl, fun _ => rfl⟩
        | cons first rest =>
          rw [List.map_cons, List.getLast?_cons]
          exact ⟨_, rfl, nofun⟩
      · exact ⟨snapshot, stands, fun _ => rfl⟩

theorem Kept.received {source : List Snap} {stream : Stream} {cut : Option Nat} (kept : s.Kept vmid)
    (fits : s.FitsReceive vmid r source cut) (sends : send source r.plan.base r.plan.snapshot = some stream)
    (node : after.node = (s.node.zfsReceive r.plan stream cut).1) (now : after.now = s.now)
    (lastRound : after.lastRound = s.lastRound) : after.Promotable vmid → after.AtOne vmid := by
  have entry : after.entry vmid = s.entry vmid := by
    simp only [entry, node, PveNode.zfsReceive, PveNode.store_setDataset]
  have copy : after.copy vmid = s.copy vmid := by simp only [copy, entry, lastRound]
  have others : ∀ dataset, dataset ≠ r.plan.dataset → after.standsAt vmid dataset = s.standsAt vmid dataset := by
    intro dataset apart_
    apply standsAt_pool
    rw [node]
    exact PveNode.pool_setDataset_other _ apart_
  intro promotable
  have before := promotable_before entry (Nat.le_of_eq now.symm) promotable
  obtain ⟨snapshot, all⟩ := kept.atOne before
  by_cases member : r.plan.dataset ∈ s.copy vmid
  · obtain ⟨later, stands, unchanged⟩ := standsAt_received node (all _ member)
    rcases fits before member with nothing | lone
    · refine ⟨snapshot, fun dataset there => ?_⟩
      rw [copy] at there
      by_cases here : dataset = r.plan.dataset
      · rw [here, stands, unchanged (nothing stream sends)]
      · rw [others dataset here]
        exact all dataset there
    · refine ⟨later, fun dataset there => ?_⟩
      rw [copy] at there
      rw [lone dataset there]
      exact stands
  · refine atOne_same copy (fun dataset there => others dataset ?_) ⟨snapshot, all⟩
    rintro rfl
    exact member there

/-- A stream that arrives in full leaves its dataset at the snapshot that the request names. -/
theorem standsAt_arrived {source : List Snap} {stream : Stream} {cut : Option Nat} {node : PveNode}
    (sends : send source r.plan.base r.plan.snapshot = some stream) (mine : isOurs r.plan.snapshot vmid = true)
    (arrived : s.node.zfsReceive r.plan stream cut = (node, true)) :
    (s.moved node).standsAt vmid r.plan.dataset = some r.plan.snapshot := by
  obtain ⟨last, ends, named⟩ := send_last sends
  obtain ⟨rfl, ok⟩ := Prod.mk.inj arrived
  rcases PveNode.receive_cases (s.node.pool r.plan.dataset) stream cut with ⟨_, failed⟩ | ⟨grown, how, received⟩
  · exact absurd (failed.symm.trans ok) nofun
  · rw [received] at ok ⊢
    obtain rfl : cut = none := Option.isNone_iff_eq_none.mp ok
    have closes : grown.getLast? = some last := by
      rcases how with ⟨_, rfl, _⟩ | ⟨_, list, _, _, _, rfl⟩
      · exact ends
      · rw [List.getLast?_append, show stream.arrived none = stream.snaps from rfl, ends]
        rfl
    simp only [standsAt, PveNode.listOurs, PveStandby.moved, PveNode.pool_setDataset, Option.getD_some, List.getLast?_map,
      newest_ours closes (named ▸ mine), Option.map_some, named]

theorem Kept.receive {request : Nat} {source : List Snap} {cut : Option Nat} (kept : s.Kept vmid)
    (fits : s.Fits vmid (.receive request source cut))
    (stepped : s.step vmid (.receive request source cut) = some after) : after.Kept vmid := by
  have fewer : ∀ r ∈ s.flight.eraseIdx request, r.plan.vmid = vmid ∧ isOurs r.plan.snapshot vmid = true :=
    fun r member => kept.own r (List.mem_of_mem_eraseIdx member)
  simp only [step] at stepped
  split at stepped
  · exact absurd stepped nofun
  · rename_i r there
    have own := kept.own r (List.mem_of_getElem? there)
    split at stepped
    · exact absurd stepped nofun
    · split at stepped
      · obtain rfl := Option.some.inj stepped
        exact ⟨fewer, kept.known, kept.atOne⟩
      · rename_i stream sends
        split at stepped
        · rename_i received result
          obtain rfl := Option.some.inj stepped
          exact ⟨fewer, kept.known.moved, kept.received (fits r there) sends (by rw [result]; rfl) rfl rfl⟩
        · rename_i received result
          obtain rfl := Option.some.inj stepped
          refine ⟨fun other member => ?_, kept.known.moved.bring (standsAt_arrived sends own.2 result),
            kept.received (fits r there) sends (by rw [result]; rfl) rfl rfl⟩
          rcases List.mem_or_eq_of_mem_set member with before | rfl
          · exact kept.own other before
          · exact own

theorem standsAt_pruned {dataset keep : String} {fails : String → Bool} (stands : s.standsAt vmid dataset = some keep)
    (pool : after.node.pool dataset = s.node.pool dataset ∨
      after.node.pool dataset = (s.node.pool dataset).map fun list => prune list vmid keep fails) :
    after.standsAt vmid dataset = some keep := by
  rcases pool with same | pruned
  · rw [standsAt_pool same]
    exact stands
  · unfold standsAt PveNode.listOurs at *
    rw [pruned]
    cases present : s.node.pool dataset with
    | none =>
      rw [present] at stands
      exact absurd stands nofun
    | some list =>
      rw [present, Option.getD_some, List.getLast?_map, Option.map_eq_some_iff] at stands
      obtain ⟨last, ends, named⟩ := stands
      rw [Option.map_some, Option.getD_some, List.getLast?_map, Option.map_eq_some_iff]
      exact ⟨last, newest_prune ends named, named⟩

theorem Known.finished {fates : PveNode.CommitFates} (known : s.Known r.plan.vmid) :
    (s.finished r.plan (s.node.pveCommitReceive r.form r.plan s.now fates).1).Known r.plan.vmid := by
  unfold PveStandby.finished
  split
  · rename_i brought
    have pruned := (s.node.commit_cases r.form r.plan s.now fates).2.1
    exact known.moved.bring (standsAt_pruned (s := s) (known _ _ brought) pruned)
  · exact known.moved

theorem mem_copy_recorded {dataset : String} (stored : after.node.store = s.node.receivedStore r.form r.plan s.now)
    (round : after.lastRound = r.round) : dataset ∈ after.copy r.plan.vmid ↔ dataset ∈ s.concerned r.plan.vmid r := by
  have old : ((s.node.store.get r.plan.vmid).getD (.blank r.plan.vmid .pveContainer (r.form.primary.bind id))).zfsDatasets =
      ((s.node.store.get r.plan.vmid).map (·.zfsDatasets)).getD [] := by
    cases s.node.store.get r.plan.vmid <;> rfl
  unfold copy concerned entry
  rw [stored, round, PveNode.get_receivedStore, Option.map_some, Option.getD_some, PveNode.receivedEntry_datasets, old]
  split
  · rename_i listed
    simp only [List.cons_append, List.mem_cons, List.mem_append]
    exact ⟨.inr, fun member => member.elim (fun same => .inl (same ▸ listed)) id⟩
  · simp only [List.cons_append, List.mem_cons, List.mem_append, List.not_mem_nil, or_false]
    tauto

theorem Kept.committed {fates : PveNode.CommitFates} (kept : s.Kept vmid) (own : r.plan.vmid = vmid)
    (fits : s.FitsCommit vmid r fates)
    (node : after.node = (s.node.pveCommitReceive r.form r.plan s.now fates).1) (now : after.now = s.now)
    (refused : ∀ e, (s.node.pveCommitReceive r.form r.plan s.now fates).2 = .error e → after.lastRound = s.lastRound)
    (done : (s.node.pveCommitReceive r.form r.plan s.now fates).2 = .ok () → after.lastRound = r.round) :
    after.Promotable vmid → after.AtOne vmid := by
  subst own
  obtain ⟨others, pruned, stored⟩ := s.node.commit_cases r.form r.plan s.now fates
  rw [← node] at others pruned stored
  intro promotable
  rcases stored with ⟨⟨e, failed⟩, same⟩ | ⟨⟨ok, config, saved⟩, recorded⟩
  · have entry : after.entry r.plan.vmid = s.entry r.plan.vmid := by simp only [entry, same]
    have copy : after.copy r.plan.vmid = s.copy r.plan.vmid := by simp only [copy, entry, refused e failed]
    have before := promotable_before entry (Nat.le_of_eq now.symm) promotable
    have standby := Bool.eq_false_iff.mpr fun primary => not_promotable_primary primary before
    refine atOne_same copy (fun dataset member => ?_) (kept.atOne before)
    by_cases here : dataset = r.plan.dataset
    · subst here
      have stands := kept.known _ _ ((fits standby).1 before member)
      rw [standsAt_pruned stands pruned, stands]
    · exact standsAt_pool (others dataset here)
  · have standby : s.isPrimary r.plan.vmid = false := by
      obtain ⟨e, held, role, _⟩ := promotable
      unfold PveStandby.entry at held
      rw [recorded, PveNode.get_receivedStore] at held
      obtain rfl := Option.some.inj held
      rw [PveNode.receivedEntry_role] at role
      unfold isPrimary PveStandby.entry
      cases there : s.node.store.get r.plan.vmid with
      | none => rfl
      | some e =>
        rw [there, Option.getD_some] at role
        simp [role]
    refine ⟨r.plan.snapshot, fun dataset member => ?_⟩
    have stands := kept.known _ _ ((fits standby).2 config saved dataset ((mem_copy_recorded recorded (done ok)).mp member))
    by_cases here : dataset = r.plan.dataset
    · subst here
      exact standsAt_pruned stands pruned
    · rw [standsAt_pool (others dataset here)]
      exact stands

theorem Kept.commit {request : Nat} {fates : PveNode.CommitFates} (kept : s.Kept vmid)
    (fits : s.Fits vmid (.commit request fates)) (stepped : s.step vmid (.commit request fates) = some after) :
    after.Kept vmid := by
  have fewer : ∀ r ∈ s.flight.eraseIdx request, r.plan.vmid = vmid ∧ isOurs r.plan.snapshot vmid = true :=
    fun r member => kept.own r (List.mem_of_mem_eraseIdx member)
  simp only [step] at stepped
  split at stepped
  · exact absurd stepped nofun
  · rename_i r there
    obtain ⟨rfl, _⟩ := kept.own r (List.mem_of_getElem? there)
    split at stepped
    · exact absurd stepped nofun
    · rename_i received
      have good := fits r there (by simpa using received)
      have known : (s.finished r.plan (s.node.pveCommitReceive r.form r.plan s.now fates).1).Known r.plan.vmid :=
        kept.known.finished
      obtain ⟨brought, same⟩ := s.finished_eq r.plan (s.node.pveCommitReceive r.form r.plan s.now fates).1
      split at stepped <;> rename_i recorded result <;> rw [result] at known same <;> dsimp only at known same <;>
        rw [same] at known <;> rw [same] at stepped <;> obtain rfl := Option.some.inj stepped
      · refine ⟨fewer, known, kept.committed rfl good (by rw [result]) rfl (fun _ _ => rfl) fun ok => ?_⟩
        rw [result] at ok
        exact absurd ok nofun
      · refine ⟨fewer, known, kept.committed rfl good (by rw [result]) rfl (fun e failed => ?_) fun _ => rfl⟩
        rw [result] at failed
        exact absurd failed nofun

theorem not_promotable {e : HaEntry} (entry : after.entry vmid = some e) (unfit : e.role = .primary ∨ e.stale = true) :
    ¬after.Promotable vmid := by
  intro ⟨other, held, role, fresh, _⟩
  obtain rfl := Option.some.inj (entry.symm.trans held)
  rcases unfit with primary | stale
  · exact absurd (role.symm.trans primary) nofun
  · exact absurd (fresh.symm.trans stale) nofun

theorem isPrimary_entry (primary : s.isPrimary vmid = true) : ∃ e, s.entry vmid = some e ∧ e.role = .primary := by
  unfold isPrimary at primary
  cases held : s.entry vmid with
  | none =>
    rw [held] at primary
    exact absurd primary nofun
  | some e =>
    rw [held] at primary
    exact ⟨e, rfl, of_decide_eq_true primary⟩

theorem entry_modifyEntry (change : HaEntry → HaEntry) {e : HaEntry} (named : ∀ e, (change e).container = e.container)
    (held : s.entry vmid = some e) : (s.modifyEntry vmid change).entry vmid = some (change e) :=
  HaStore.get_modify_found change named held

theorem demotedStore_stale (vmid : String) (store : HaStore) (newPrimary : HaPeer) :
    ∃ e, (demotedStore store vmid newPrimary).get vmid = some e ∧ e.stale = true := by
  unfold demotedStore
  cases held : store.get vmid with
  | none =>
    refine ⟨{ HaEntry.blank vmid SubjectKind.default (some newPrimary) with stale := true }, ?_, rfl⟩
    dsimp only
    rw [HaStore.get_push, held]
    simp [HaEntry.blank]
  | some e =>
    exact ⟨demotedEntry newPrimary e, HaStore.get_modify_found (demotedEntry newPrimary) (fun _ => rfl) held, rfl⟩

theorem Kept.promote {me : Option HaPeer} {replicas : List HaPeer} (kept : s.Kept vmid)
    (stepped : s.step vmid (.promote me replicas) = some after) : after.Kept vmid := by
  simp only [step] at stepped
  split at stepped
  · exact absurd stepped nofun
  · rename_i e held
    split at stepped
    · exact absurd stepped nofun
    · obtain rfl := Option.some.inj stepped
      have entry := entry_modifyEntry (promotedEntry me replicas) (fun _ => rfl) held
      exact ⟨kept.own, kept.known, fun promotable => absurd promotable (not_promotable entry (.inl rfl))⟩

theorem Kept.demote {newPrimary : HaPeer} (kept : s.Kept vmid) (stepped : s.step vmid (.demote newPrimary) = some after) :
    after.Kept vmid := by
  obtain rfl := Option.some.inj stepped
  obtain ⟨e, held, stale⟩ := demotedStore_stale vmid s.node.store newPrimary
  exact ⟨kept.own, kept.known, fun promotable => absurd promotable (not_promotable held (.inr stale))⟩

theorem Kept.fence {stale : Bool} (kept : s.Kept vmid) (stepped : s.step vmid (.fence stale) = some after) :
    after.Kept vmid := by
  simp only [step] at stepped
  split at stepped
  · rename_i primary
    obtain ⟨e, held, role⟩ := isPrimary_entry primary
    obtain rfl := Option.some.inj stepped
    have entry := entry_modifyEntry (fun e => { e with stale }) (fun _ => rfl) held
    exact ⟨kept.own, kept.known, fun promotable => absurd promotable (not_promotable entry (.inl role))⟩
  · exact absurd stepped nofun

theorem Kept.snapshot {datasets : List String} {snap : Snap} (kept : s.Kept vmid)
    (stepped : s.step vmid (.snapshot datasets snap) = some after) : after.Kept vmid := by
  simp only [step] at stepped
  split at stepped
  · rename_i primary
    obtain ⟨e, held, role⟩ := isPrimary_entry primary
    obtain rfl := Option.some.inj stepped
    exact ⟨kept.own, kept.known.moved, fun promotable => absurd promotable (not_promotable held (.inl role))⟩
  · exact absurd stepped nofun

theorem Kept.remove {destroyed : List String} (kept : s.Kept vmid) (stepped : s.step vmid (.remove destroyed) = some after) :
    after.Kept vmid := by
  obtain rfl := Option.some.inj stepped
  refine ⟨kept.own, kept.known.moved, fun ⟨e, held, _⟩ => ?_⟩
  exact absurd ((HaStore.get_remove_self s.node.store vmid).symm.trans held) nofun

theorem Kept.advance {seconds : Nat} (kept : s.Kept vmid) (stepped : s.step vmid (.advance seconds) = some after) :
    after.Kept vmid := by
  obtain rfl := Option.some.inj stepped
  refine ⟨kept.own, kept.known, fun promotable => ?_⟩
  have before : s.Promotable vmid :=
    promotable_before (by rfl) (by exact Nat.le_add_right s.now seconds) promotable
  exact atOne_same (s := s) rfl (fun _ _ => rfl) (kept.atOne before)

theorem Kept.step {event : StandbyEvent} (kept : s.Kept vmid) (fits : s.Fits vmid event)
    (stepped : s.step vmid event = some after) : after.Kept vmid := by
  cases event with
  | prepare form round destroyed => exact kept.prepare fits stepped
  | receive request source cut => exact kept.receive fits stepped
  | commit request fates => exact kept.commit fits stepped
  | quit request =>
    obtain rfl := Option.some.inj stepped
    exact ⟨fun r member => kept.own r (List.mem_of_mem_eraseIdx member), kept.known, kept.atOne⟩
  | promote me replicas => exact kept.promote stepped
  | demote newPrimary => exact kept.demote stepped
  | fence stale => exact kept.fence stepped
  | snapshot datasets snap => exact kept.snapshot stepped
  | remove destroyed => exact kept.remove stepped
  | advance seconds => exact kept.advance stepped

/-- A standby that records a request while a dataset of its round, or of those it lists, is
not at the request's snapshot has a copy that may be promoted and is not one instant. -/
theorem early_record_parts {request : Nat} {fates : PveNode.CommitFates} (there : s.flight[request]? = some r)
    (own : r.plan.vmid = vmid) (standby : s.isPrimary vmid = false)
    (arrived : s.standsAt vmid r.plan.dataset = some r.plan.snapshot)
    (short : ∃ dataset ∈ s.concerned vmid r, s.standsAt vmid dataset ≠ some r.plan.snapshot)
    (stepped : s.step vmid (.commit request fates) = some after)
    (recorded : (s.node.pveCommitReceive r.form r.plan s.now fates).2 = .ok ()) :
    after.Promotable vmid ∧ ¬after.AtOne vmid := by
  subst own
  obtain ⟨others, pruned, stored⟩ := s.node.commit_cases r.form r.plan s.now fates
  rcases stored with ⟨⟨e, failed⟩, _⟩ | ⟨_, stored⟩
  · exact absurd (recorded.symm.trans failed) nofun
  simp only [step, there] at stepped
  split at stepped
  · exact absurd stepped nofun
  split at stepped <;> rename_i node result
  · rw [result] at recorded
    exact absurd recorded nofun
  obtain ⟨brought, same⟩ := s.finished_eq r.plan node
  rw [same] at stepped
  obtain rfl := Option.some.inj stepped
  rw [result] at others pruned stored
  constructor
  · refine ⟨_, (congrArg (HaStore.get · r.plan.vmid) stored).trans PveNode.get_receivedStore, ?_,
      PveNode.receivedEntry_fresh.1, ?_⟩
    · rw [PveNode.receivedEntry_role]
      unfold isPrimary entry at standby
      cases before : s.node.store.get r.plan.vmid with
      | none => rfl
      | some e =>
        rw [before] at standby
        cases role : e.role <;> simp_all
    · rw [PveNode.receivedEntry_fresh.2, Nat.sub_self]
      exact Nat.zero_le _
  · intro ⟨snapshot, all⟩
    obtain ⟨dataset, member, missing⟩ := short
    have copied : ∀ ds, ds ∈ s.concerned r.plan.vmid r →
        ds ∈ copy r.plan.vmid ⟨node, s.now, s.flight.eraseIdx request, brought, r.round⟩ :=
      fun ds => (mem_copy_recorded stored rfl).mpr
    have one := all _ (copied _ List.mem_cons_self)
    obtain rfl := Option.some.inj (one.symm.trans (standsAt_pruned arrived pruned))
    by_cases here : dataset = r.plan.dataset
    · exact missing (here ▸ arrived)
    · exact missing ((standsAt_pool (others dataset here)).symm.trans (all dataset (copied _ member)))

def vacant : PveStandby where
  node := {
    name := "b"
    isProxmox := true
    haveZfs := true
    pool := fun ds => if ds = "tank" then some [] else none
    running := fun _ => false
    configs := fun _ => false
    foreignConfigs := fun _ => []
    store := .empty }
  now := 600
  flight := []
  lastRound := []
  brought := fun _ => none

def asks (dataset base : String) (snap : Snap) : StandbyEvent :=
  .prepare ⟨"104", dataset, snap.name, base, "", some none, none⟩ ["tank/a", "tank/b"] (.ok ())

end PveStandby
end WolfHa
