import WolfStack.SecretRotation.Node

/-! The time between the commit of a new secret on every node and the last restart.
A node that was restarted holds the new secret in memory, the others the old one. -/

namespace SecretRotation
open Auth

/-- Every node has the new secret on disk, and none has been restarted since. -/
structure Committed (nodes : String → Node) (old new : String) : Prop where
  loaded : ∃ file, loadClusterSecret file = old
  shape : validSecretShape new = true
  active : ∀ id, (nodes id).active = some new
  memory : ∀ id, (nodes id).memory = old

def restarted (nodes : String → Node) : List String → String → Node
  | [] => nodes
  | id :: rest => restarted (fun other => if other = id then (nodes other).restart else nodes other) rest

/-- A node calls another with the secret it holds in memory. -/
def accepts (nodes : String → Node) (caller receiver : String) (peer : Option IpAddr) : Bool :=
  (nodes receiver).authority.validateInterNodeSecretFrom (nodes caller).memory peer

variable {nodes : String → Node} {old new : String}

theorem restarted_node (nodes : String → Node) (ids : List String) (id : String) :
    restarted nodes ids id = if id ∈ ids then (nodes id).restart else nodes id := by
  induction ids generalizing nodes with
  | nil => rfl
  | cons first rest ih =>
    rw [restarted, ih]
    by_cases same : id = first
    · subst same
      simp only [if_true, List.mem_cons, true_or]
      split
      · rfl
      · rfl
    · simp only [same, if_false, List.mem_cons, false_or]

theorem Committed.secret (committed : Committed nodes old new) (id : String) : (nodes id).secret = new := by
  rw [Node.secret, committed.active id]
  exact validSecretShape_loads new committed.shape

theorem Committed.memory_restarted (committed : Committed nodes old new) (ids : List String) (id : String) :
    (restarted nodes ids id).memory = if id ∈ ids then new else old := by
  rw [restarted_node]
  split
  · exact committed.secret id
  · exact committed.memory id

theorem restarted_active (nodes : String → Node) (ids : List String) (id : String) :
    (restarted nodes ids id).active = (nodes id).active := by
  rw [restarted_node]
  split
  · rfl
  · rfl

theorem restarted_forces (nodes : String → Node) (ids : List String) (id : String) :
    (restarted nodes ids id).authority.ForcesDefault ↔ (nodes id).authority.ForcesDefault := by
  rw [restarted_node]
  split
  · exact Iff.rfl
  · exact Iff.rfl

/-- Whichever nodes were restarted, a call is accepted exactly when its caller was
restarted, or the secret did not change, or the receiver still knows the old one:
from its own memory, or for the built-in default by the operator's flag. -/
theorem accepts_iff (committed : Committed nodes old new) (ids : List String)
    (caller receiver : String) (peer : Option IpAddr) :
    accepts (restarted nodes ids) caller receiver peer = true ↔
      caller ∈ ids ∨ old = new ∨
        if old = clusterSecret then (nodes receiver).authority.ForcesDefault else receiver ∉ ids := by
  have newCustom := validSecretShape_custom new committed.shape
  have nonempty : old ≠ "" := by
    obtain ⟨file, rfl⟩ := committed.loaded
    exact loadClusterSecret_ne_empty file
  have newNonempty : new ≠ "" := by
    rw [← committed.secret caller]
    exact loadClusterSecret_ne_empty _
  have disk : (restarted nodes ids receiver).authority.file = some new :=
    (restarted_active nodes ids receiver).trans (committed.active receiver)
  have onDisk : loadClusterSecret (restarted nodes ids receiver).authority.file = new := by
    rw [disk]
    exact validSecretShape_loads new committed.shape
  have custom : hasCustomClusterSecret (restarted nodes ids receiver).authority.file = true := by
    rw [disk]
    exact validSecretShape_hasCustom new committed.shape
  have held : (restarted nodes ids receiver).authority.inMemory = if receiver ∈ ids then new else old :=
    committed.memory_restarted ids receiver
  rw [accepts, committed.memory_restarted]
  by_cases called : caller ∈ ids
  · rw [if_pos called, validateInterNodeSecretFrom_iff _ _ _ newNonempty, if_neg newCustom, onDisk]
    simp [called]
  · rw [if_neg called, validateInterNodeSecretFrom_iff _ _ _ nonempty, onDisk, held,
      defaultSecretAcceptedFrom_custom _ _ custom, restarted_forces]
    by_cases builtin : old = clusterSecret
    · have changed : old ≠ new := fun same => newCustom (same.symm.trans builtin)
      simp [builtin, called, builtin ▸ changed]
    · by_cases received : receiver ∈ ids
      · simp [builtin, called, received]
      · simp [builtin, called, received]

def rolledOut : String → Node := fun _ => { settledNode with active := some secondSecret }

theorem rolledOut_committed : Committed rolledOut firstSecret secondSecret where
  loaded := ⟨some firstSecret, by decide⟩
  shape := by decide
  active := fun _ => rfl
  memory := fun _ => rfl

theorem accepts_iff_sample :
    accepts (restarted rolledOut ["alpha"]) "alpha" "beta" none = true ↔
      "alpha" ∈ ["alpha"] ∨ firstSecret = secondSecret ∨
        if firstSecret = clusterSecret then (rolledOut "beta").authority.ForcesDefault else "beta" ∉ ["alpha"] :=
  accepts_iff rolledOut_committed ["alpha"] "alpha" "beta" none

/-- Once only the receiver was restarted, it refuses the secret its caller still holds. -/
theorem restarted_receiver_refuses : Committed rolledOut firstSecret secondSecret ∧
    accepts (restarted rolledOut ["beta"]) "alpha" "beta" none = false := by
  refine ⟨rolledOut_committed, ?_⟩
  decide

end SecretRotation
