import WolfStack.SecretRotation.Coordinator

/-! When a rotation is all or nothing. Each phase is one peer's affair: what its tries
leave of its secret files. A commit that is not acknowledged is never undone. -/

namespace SecretRotation
open Auth

section
variable {sha256Hex : String → String} {node : Node} {secret new : String}

def Node.Hears (node : Node) (secret : String) (peer : Option IpAddr) (signature : Bool) : Prop :=
  node.admits ⟨secret, peer, signature⟩ = true

def WriteFate.touches : WriteFate → Bool
  | .failed _ => false
  | _ => true

def Written (node : Node) (secret : String) (deliveries : List (Delivery WriteFate)) : Prop :=
  ∃ peer signature write heard, .served peer signature write heard ∈ deliveries ∧
    node.Hears secret peer signature ∧ write.touches = true

abbrev receiveNew (sha256Hex : String → String) (new : String) (node : Node) (caller : Caller) (write : WriteFate) :
    Node × Except Refusal ReceiveAck :=
  apiRotateReceive sha256Hex node caller ⟨new, sha256Hex new⟩ write

theorem receive_step (sha256Hex : String → String) (node : Node) (shape : validSecretShape new = true) (caller : Caller) (write : WriteFate) :
    (∃ pending, (receiveNew sha256Hex new node caller write).1 = { node with pending } ∧
      (pending = none ↔ node.pending = none ∧ ¬(node.admits caller = true ∧ write.touches = true))) ∧
    ((∃ ack, (receiveNew sha256Hex new node caller write).2 = .ok ack) →
      (receiveNew sha256Hex new node caller write).1 = { node with pending := some new }) := by
  simp only [receiveNew, apiRotateReceive]
  cases auth : requireAuth node caller with
  | error refusal =>
    have refused : node.admits caller ≠ true := fun admitted => by
      rw [(requireAuth_ok node caller).mpr admitted] at auth
      cases auth
    exact ⟨⟨node.pending, rfl, by simp [refused]⟩, nofun⟩
  | ok granted =>
    have admitted := (requireAuth_ok node caller).mp auth
    simp only [shape, Bool.not_true, Bool.false_eq_true, if_false, ne_eq, not_true_eq_false]
    cases write with
    | done => exact ⟨⟨some new, rfl, by simp [admitted, WriteFate.touches]⟩, fun _ => rfl⟩
    | failed e => exact ⟨⟨node.pending, rfl, by simp [WriteFate.touches]⟩, nofun⟩
    | torn e length => exact ⟨⟨some (cut length new), rfl, by simp [admitted, WriteFate.touches]⟩, nofun⟩

/-- A peer that acknowledges holds the new secret as pending; one that does not has a
pending file exactly if it had one or wrote to it. -/
theorem receive_tries (sha256Hex : String → String) (secret : String) (shape : validSecretShape new = true) (node : Node) (deliveries : List (Delivery WriteFate)) :
    let tried := tries (receiveNew sha256Hex new) secret node deliveries
    (tried.2 = true → tried.1 = { node with pending := some new }) ∧
    (tried.2 = false → ∃ pending, tried.1 = { node with pending } ∧
      (pending = none ↔ node.pending = none ∧ ¬Written node secret deliveries)) := by
  induction deliveries generalizing node with
  | nil => exact ⟨fun impossible => (by cases impossible), fun _ => ⟨node.pending, rfl, by simp [Written]⟩⟩
  | cons delivery rest ih =>
    cases delivery with
    | lost =>
      obtain ⟨acknowledged, silent⟩ := ih node
      refine ⟨acknowledged, fun quiet => ?_⟩
      obtain ⟨pending, same, none⟩ := silent quiet
      refine ⟨pending, same, none.trans ?_⟩
      simp [Written]
    | served peer signature write heard =>
      obtain ⟨⟨pending, moved, left⟩, success⟩ := receive_step sha256Hex node shape ⟨secret, peer, signature⟩ write
      have further : ∀ node', node' = { node with pending } →
          let tried := tries (receiveNew sha256Hex new) secret node' rest
          (tried.2 = true → tried.1 = { node with pending := some new }) ∧
          (tried.2 = false → ∃ pending, tried.1 = { node with pending } ∧
            (pending = none ↔ node.pending = none ∧ ¬Written node secret (.served peer signature write heard :: rest))) := by
        rintro _ rfl
        obtain ⟨acknowledged, silent⟩ := ih { node with pending }
        refine ⟨acknowledged, fun quiet => ?_⟩
        obtain ⟨final, same, none⟩ := silent quiet
        refine ⟨final, same, none.trans ?_⟩
        have unaffected : Written { node with pending } secret rest ↔ Written node secret rest := Iff.rfl
        rw [unaffected, left]
        simp only [Written, List.mem_cons, Delivery.served.injEq, Node.Hears]
        constructor
        · rintro ⟨⟨absent, unwritten⟩, before⟩
          refine ⟨absent, ?_⟩
          rintro ⟨other, sign, fate, reply, member, hears, touches⟩
          rcases member with ⟨rfl, rfl, rfl, rfl⟩ | member
          · exact unwritten ⟨hears, touches⟩
          · exact before ⟨other, sign, fate, reply, member, hears, touches⟩
        · rintro ⟨absent, never⟩
          refine ⟨⟨absent, fun writes => never ⟨peer, signature, write, heard, .inl ⟨rfl, rfl, rfl, rfl⟩, writes⟩⟩, ?_⟩
          rintro ⟨other, sign, fate, reply, member, writes⟩
          exact never ⟨other, sign, fate, reply, .inr member, writes⟩
      simp only [tries]
      generalize answered : receiveNew sha256Hex new node ⟨secret, peer, signature⟩ write = reply at moved success ⊢
      obtain ⟨after, result⟩ := reply
      cases result with
      | error refusal => exact further after moved
      | ok ack =>
        cases heard with
        | true => exact ⟨fun _ => success ⟨ack, rfl⟩, fun impossible => by cases impossible⟩
        | false => exact further after moved

def Removed (node : Node) (secret : String) (deliveries : List (Delivery RollbackIo)) : Prop :=
  ∃ peer signature io heard, .served peer signature io heard ∈ deliveries ∧
    node.Hears secret peer signature ∧ io.remove = none

abbrev revokePending (node : Node) (caller : Caller) (io : RollbackIo) : Node × Except Refusal RollbackAck :=
  apiRotateRollback node caller "pending" io

theorem revoke_step (node : Node) (caller : Caller) (io : RollbackIo) :
    (∃ pending, (revokePending node caller io).1 = { node with pending } ∧
      (pending = none ↔ node.pending = none ∨ (node.admits caller = true ∧ io.remove = none))) ∧
    ((∃ ack, (revokePending node caller io).2 = .ok ack) → (revokePending node caller io).1.pending = none) := by
  simp only [revokePending, apiRotateRollback, if_true]
  cases auth : requireAuth node caller with
  | error refusal =>
    have refused : node.admits caller ≠ true := fun admitted => by
      rw [(requireAuth_ok node caller).mpr admitted] at auth
      cases auth
    refine ⟨⟨node.pending, rfl, by simp [refused]⟩, ?_⟩
    rintro ⟨_, impossible⟩
    cases impossible
  | ok granted =>
    have admitted := (requireAuth_ok node caller).mp auth
    cases held : node.pending with
    | none => exact ⟨⟨node.pending, rfl, by simp [held]⟩, fun _ => held⟩
    | some content =>
      cases remove : io.remove with
      | none => exact ⟨⟨none, rfl, by simp [admitted]⟩, fun _ => rfl⟩
      | some e =>
        refine ⟨⟨node.pending, rfl, by simp [held]⟩, ?_⟩
        rintro ⟨_, impossible⟩
        cases impossible

theorem revoke_tries (secret : String) (node : Node) (deliveries : List (Delivery RollbackIo)) :
    ∃ pending, (tries revokePending secret node deliveries).1 = { node with pending } ∧
      (pending = none ↔ node.pending = none ∨ Removed node secret deliveries) := by
  induction deliveries generalizing node with
  | nil => exact ⟨node.pending, rfl, by simp [Removed]⟩
  | cons delivery rest ih =>
    cases delivery with
    | lost =>
      obtain ⟨pending, same, none⟩ := ih node
      exact ⟨pending, same, none.trans (by simp [Removed])⟩
    | served peer signature io heard =>
      obtain ⟨⟨pending, moved, left⟩, success⟩ := revoke_step node ⟨secret, peer, signature⟩ io
      have splits : Removed node secret (.served peer signature io heard :: rest) ↔
          (node.admits ⟨secret, peer, signature⟩ = true ∧ io.remove = none) ∨ Removed node secret rest := by
        simp only [Removed, List.mem_cons, Delivery.served.injEq, Node.Hears]
        constructor
        · rintro ⟨other, sign, fate, reply, ⟨rfl, rfl, rfl, rfl⟩ | member, removes⟩
          · exact .inl removes
          · exact .inr ⟨other, sign, fate, reply, member, removes⟩
        · rintro (removes | ⟨other, sign, fate, reply, member, removes⟩)
          · exact ⟨peer, signature, io, heard, .inl ⟨rfl, rfl, rfl, rfl⟩, removes⟩
          · exact ⟨other, sign, fate, reply, .inr member, removes⟩
      have further : ∀ node', node' = { node with pending } →
          ∃ pending, (tries revokePending secret node' rest).1 = { node with pending } ∧
            (pending = none ↔ node.pending = none ∨ Removed node secret (.served peer signature io heard :: rest)) := by
        rintro _ rfl
        obtain ⟨final, same, none⟩ := ih { node with pending }
        have unaffected : Removed { node with pending } secret rest ↔ Removed node secret rest := Iff.rfl
        refine ⟨final, same, none.trans ?_⟩
        rw [unaffected, left, splits, or_assoc]
      simp only [tries]
      generalize answered : revokePending node ⟨secret, peer, signature⟩ io = reply at moved success ⊢
      obtain ⟨after, result⟩ := reply
      cases result with
      | error refusal => exact further after moved
      | ok ack =>
        cases heard with
        | false => exact further after moved
        | true =>
          have gone := success ⟨ack, rfl⟩
          simp only at moved gone
          rw [moved] at gone
          refine ⟨pending, moved, iff_of_true gone ?_⟩
          rw [splits]
          exact (left.mp gone).imp id .inl

abbrev promoteNew (sha256Hex : String → String) (new : String) (node : Node) (caller : Caller) (io : CommitIo) :
    Node × Except Refusal CommitAck :=
  apiRotateCommit sha256Hex node caller (sha256Hex new) io

def Node.Promoted (node : Node) (new : String) : Prop := node.pending = none ∧ node.active = some new

theorem promote_step (sha256Hex : String → String) (new : String) (node : Node) (caller : Caller) (io : CommitIo) :
    (node.pending = some new → (promoteNew sha256Hex new node caller io).1.pending = some new ∨
      (promoteNew sha256Hex new node caller io).1.Promoted new) ∧
    (node.Promoted new → (promoteNew sha256Hex new node caller io).1.Promoted new) ∧
    ((∃ ack, (promoteNew sha256Hex new node caller io).2 = .ok ack) → node.pending = some new →
      (promoteNew sha256Hex new node caller io).1.Promoted new) := by
  have acknowledged : (∃ ack, (promoteNew sha256Hex new node caller io).2 = .ok ack) → node.pending = some new →
      (promoteNew sha256Hex new node caller io).1.Promoted new := by
    rintro ⟨ack, answered⟩ held
    obtain ⟨content, pending, result⟩ := apiRotateCommit_acknowledged answered
    rw [held, Option.some.injEq] at pending
    subst pending
    rw [result]
    exact ⟨rfl, rfl⟩
  refine ⟨fun held => ?_, fun promoted => ?_, acknowledged⟩
  · cases answered : (promoteNew sha256Hex new node caller io).2 with
    | ok ack => exact .inr (acknowledged ⟨ack, answered⟩ held)
    | error refusal => exact .inl ((apiRotateCommit_refused answered).trans held)
  · have silent : (promoteNew sha256Hex new node caller io).1 = node := by
      simp only [promoteNew, apiRotateCommit, readPending, promoted.1]
      cases requireAuth node caller with
      | error refusal => rfl
      | ok granted => rfl
    rw [silent]
    exact promoted

theorem promote_tries (sha256Hex : String → String) (secret new : String) (node : Node) (deliveries : List (Delivery CommitIo))
    (held : node.pending = some new ∨ node.Promoted new) :
    let tried := tries (promoteNew sha256Hex new) secret node deliveries
    (tried.1.pending = some new ∨ tried.1.Promoted new) ∧ (tried.2 = true → tried.1.Promoted new) := by
  induction deliveries generalizing node with
  | nil => exact ⟨held, nofun⟩
  | cons delivery rest ih =>
    cases delivery with
    | lost => exact ih node held
    | served peer signature io heard =>
      obtain ⟨waiting, promoted, success⟩ := promote_step sha256Hex new node ⟨secret, peer, signature⟩ io
      have next : (promoteNew sha256Hex new node ⟨secret, peer, signature⟩ io).1.pending = some new ∨
          (promoteNew sha256Hex new node ⟨secret, peer, signature⟩ io).1.Promoted new :=
        held.elim waiting fun done => .inr (promoted done)
      simp only [tries]
      generalize answered : promoteNew sha256Hex new node ⟨secret, peer, signature⟩ io = reply at promoted success next ⊢
      obtain ⟨after, result⟩ := reply
      cases result with
      | error refusal => exact ih after next
      | ok ack =>
        cases heard with
        | false => exact ih after next
        | true =>
          have done : after.Promoted new := held.elim (success ⟨ack, rfl⟩) promoted
          exact ⟨.inr done, fun _ => done⟩

end

/-! ### A whole run -/

section
variable (sha256Hex : String → String) (cluster : Cluster) (run : Run)

def Cluster.self : Node := cluster.nodes cluster.selfId

def Run.newSecret : String := generateClusterSecret run.drawn

structure Ready : Prop where
  operator : run.session = some false
  free : run.busy = false
  fresh : cluster.self.secret = cluster.self.memory
  client : run.client = none
  peers : ∀ id ∈ cluster.peers, preflight (cluster.nodes id) cluster.self.memory (run.preflight id) = true

/-- The coordinator hears from a peer that it has the new secret as pending. -/
def Receives (id : String) : Prop :=
  (tries (receiveNew sha256Hex run.newSecret) cluster.self.memory (cluster.nodes id) (run.receive id)).2 = true

/-- The coordinator hears from a peer with the new secret pending that it promoted it. -/
def Commits (id : String) : Prop :=
  (tries (promoteNew sha256Hex run.newSecret) cluster.self.memory
    { cluster.nodes id with pending := some run.newSecret } (run.commit id)).2 = true

def SelfCommits : Prop := (cluster.self.active.isSome → run.selfCommit.backup = .done) ∧ run.selfCommit.rename = none

/-- Every node's active secret is the old one or every one's the new one, and no peer
has a pending file. -/
structure Consistent (old new : String) (after : String → Node) : Prop where
  secrets : (∀ id ∈ cluster.selfId :: cluster.peers, (after id).secret = old) ∨
    ∀ id ∈ cluster.selfId :: cluster.peers, (after id).secret = new
  pending : ∀ id ∈ cluster.peers, (after id).pending = none

/-- Nobody was left with a pending file by a run that stopped before it committed, and
every commit is acknowledged in one that did not. -/
structure AllOrNothing : Prop where
  unready : ¬Ready cluster run → ∀ id ∈ cluster.peers, (cluster.nodes id).pending = none
  unreceived : Ready cluster run → (∃ id ∈ cluster.peers, ¬Receives sha256Hex cluster run id) → ∀ id ∈ cluster.peers,
    (Receives sha256Hex cluster run id → Removed (cluster.nodes id) cluster.self.memory (run.rollback id)) ∧
    (¬Receives sha256Hex cluster run id →
      (cluster.nodes id).pending = none ∧ ¬Written (cluster.nodes id) cluster.self.memory (run.receive id))
  unstaged : Ready cluster run → (∀ id ∈ cluster.peers, Receives sha256Hex cluster run id) → run.selfPending ≠ .done →
    ∀ id ∈ cluster.peers, Removed (cluster.nodes id) cluster.self.memory (run.rollback id)
  committed : Ready cluster run → (∀ id ∈ cluster.peers, Receives sha256Hex cluster run id) → run.selfPending = .done →
    (∀ id ∈ cluster.peers, Commits sha256Hex cluster run id) ∧ (cluster.peers = [] ∨ SelfCommits cluster run)

end

section
variable {sha256Hex : String → String} {cluster : Cluster} {run : Run}

theorem rotate_unready (unready : ¬Ready cluster run) :
    (apiCoordinatedRotate sha256Hex cluster run).nodes = cluster.nodes := by
  rw [apiCoordinatedRotate]
  cases session : run.session with
  | none => rfl
  | some readOnly =>
    cases readOnly with
    | true => rfl
    | false =>
      simp only
      split
      · rfl
      · rename_i free
        split
        · rfl
        · rename_i current
          cases client : run.client with
          | some e => rfl
          | none =>
            simp only
            rw [if_pos]
            intro all
            rw [List.filter_eq_nil_iff] at all
            apply unready
            exact {
              operator := session
              free := Bool.eq_false_iff.mpr free
              fresh := not_not.mp current
              client := client
              peers := fun id member => by simpa [Cluster.self] using all id member }

theorem Run.newSecret_shape (run : Run) : validSecretShape run.newSecret = true := generateClusterSecret_shape run.drawn

theorem received_spec (sha256Hex : String → String) (cluster : Cluster) (run : Run) :
    let visited := visit (receiveNew sha256Hex run.newSecret) cluster.self.memory run.receive cluster.peers cluster.nodes
    visited.1 cluster.selfId = cluster.self ∧
    (∀ id ∈ cluster.peers, visited.1 id =
      (tries (receiveNew sha256Hex run.newSecret) cluster.self.memory (cluster.nodes id) (run.receive id)).1) ∧
    (∀ id, id ∈ visited.2.1 ↔ id ∈ cluster.peers ∧ Receives sha256Hex cluster run id) ∧ visited.2.1.Nodup ∧
    (visited.2.2 = [] ↔ ∀ id ∈ cluster.peers, Receives sha256Hex cluster run id) := by
  obtain ⟨after, accepted, failed⟩ := visit_spec (receiveNew sha256Hex run.newSecret) cluster.self.memory
    run.receive cluster.peers cluster.nodes cluster.distinct
  refine ⟨?_, fun id member => ?_, fun id => ?_, ?_, ?_⟩
  · rw [after, if_neg cluster.others]
    rfl
  · rw [after, if_pos member]
  · rw [accepted, List.mem_filter]
    rfl
  · rw [accepted]
    exact cluster.distinct.filter _
  · rw [failed, List.filter_eq_nil_iff]
    simp [Receives]

theorem rotate_ready (ready : Ready cluster run) : apiCoordinatedRotate sha256Hex cluster run =
    receivePhase sha256Hex cluster run cluster.self.memory run.newSecret := by
  have prepared : cluster.peers.filter
      (fun id => !preflight (cluster.nodes id) cluster.self.memory (run.preflight id)) = [] := by
    rw [List.filter_eq_nil_iff]
    intro id member
    simp [ready.peers id member]
  have current : ¬(cluster.nodes cluster.selfId).secret ≠ (cluster.nodes cluster.selfId).memory :=
    not_not.mpr ready.fresh
  rw [apiCoordinatedRotate, ready.operator]
  simp only [ready.free, Bool.false_eq_true, if_false, if_neg current, ready.client]
  exact if_neg (not_not.mpr prepared)

theorem revoked_spec (run : Run) (peers : List String) (distinct : peers.Nodup) (nodes : String → Node) (old : String) (id : String) :
    ∃ pending, (visit revokePending old run.rollback peers nodes).1 id = { nodes id with pending } ∧
      (pending = none ↔ (nodes id).pending = none ∨ (id ∈ peers ∧ Removed (nodes id) old (run.rollback id))) := by
  rw [(visit_spec revokePending old run.rollback peers nodes distinct).1]
  split
  · rename_i member
    obtain ⟨pending, same, none⟩ := revoke_tries old (nodes id) (run.rollback id)
    exact ⟨pending, same, none.trans (by simp [member])⟩
  · rename_i other
    exact ⟨(nodes id).pending, rfl, by simp [other]⟩

theorem withoutPending_secret (node : Node) (cleanup : Option String) :
    (node.withoutPending cleanup).secret = node.secret := by
  cases cleanup with
  | none => rfl
  | some e => rfl

theorem Cluster.ne_self {id : String} (member : id ∈ cluster.peers) : id ≠ cluster.selfId := by
  rintro rfl
  exact cluster.others member

theorem receivePhase_unreceived (missing : ∃ id ∈ cluster.peers, ¬Receives sha256Hex cluster run id) :
    let after := (receivePhase sha256Hex cluster run cluster.self.memory run.newSecret).nodes
    (after cluster.selfId).secret = cluster.self.secret ∧ ∀ id ∈ cluster.peers,
      (after id).secret = (cluster.nodes id).secret ∧ ((after id).pending = none ↔
        (Receives sha256Hex cluster run id → Removed (cluster.nodes id) cluster.self.memory (run.rollback id)) ∧
        (¬Receives sha256Hex cluster run id →
          (cluster.nodes id).pending = none ∧ ¬Written (cluster.nodes id) cluster.self.memory (run.receive id))) := by
  obtain ⟨selfKept, each, accepted, distinct, failed⟩ := received_spec sha256Hex cluster run
  have some_failed := mt failed.mp (by simpa using missing)
  simp only [receivePhase]
  rw [if_pos some_failed]
  simp only
  refine ⟨?_, fun id member => ?_⟩
  · rw [Function.update_self, withoutPending_secret]
    obtain ⟨pending, same, -⟩ := revoked_spec run _ distinct _ cluster.self.memory cluster.selfId
    rw [same, selfKept]
    rfl
  · rw [Function.update_of_ne (cluster.ne_self member)]
    obtain ⟨pending, same, none⟩ := revoked_spec run _ distinct _ cluster.self.memory id
    obtain ⟨acknowledged, silent⟩ := receive_tries sha256Hex cluster.self.memory run.newSecret_shape
      (cluster.nodes id) (run.receive id)
    rw [same]
    rw [each id member, accepted] at none
    rw [each id member]
    by_cases receives : Receives sha256Hex cluster run id
    · rw [acknowledged receives] at none ⊢
      refine ⟨rfl, none.trans ?_⟩
      have unaffected : Removed { cluster.nodes id with pending := some run.newSecret }
          cluster.self.memory (run.rollback id) ↔ Removed (cluster.nodes id) cluster.self.memory (run.rollback id) := Iff.rfl
      simp [receives, member, unaffected]
    · obtain ⟨held, moved, left⟩ := silent (by simpa [Receives] using receives)
      rw [moved] at none ⊢
      refine ⟨rfl, none.trans ?_⟩
      simp [receives, left]

theorem received_everywhere (received : ∀ id ∈ cluster.peers, Receives sha256Hex cluster run id) :
    let visited := visit (receiveNew sha256Hex run.newSecret) cluster.self.memory run.receive cluster.peers cluster.nodes
    visited.1 cluster.selfId = cluster.self ∧ visited.2.2 = [] ∧ visited.2.1.Nodup ∧
      (∀ id ∈ cluster.peers, id ∈ visited.2.1) ∧
      ∀ id ∈ cluster.peers, visited.1 id = { cluster.nodes id with pending := some run.newSecret } := by
  obtain ⟨selfKept, each, accepted, distinct, failed⟩ := received_spec sha256Hex cluster run
  refine ⟨selfKept, failed.mpr received, distinct, fun id member => (accepted id).mpr ⟨member, received id member⟩, ?_⟩
  intro id member
  rw [each id member]
  exact (receive_tries sha256Hex cluster.self.memory run.newSecret_shape (cluster.nodes id) (run.receive id)).1
    (received id member)

theorem receivePhase_unstaged (received : ∀ id ∈ cluster.peers, Receives sha256Hex cluster run id)
    (unstaged : run.selfPending ≠ .done) :
    let after := (receivePhase sha256Hex cluster run cluster.self.memory run.newSecret).nodes
    (after cluster.selfId).secret = cluster.self.secret ∧ ∀ id ∈ cluster.peers,
      (after id).secret = (cluster.nodes id).secret ∧
      ((after id).pending = none ↔ Removed (cluster.nodes id) cluster.self.memory (run.rollback id)) := by
  obtain ⟨selfKept, none_failed, distinct, accepted, each⟩ := received_everywhere received
  generalize visited : visit (receiveNew sha256Hex run.newSecret) cluster.self.memory run.receive cluster.peers
    cluster.nodes = result at selfKept none_failed distinct accepted each
  obtain ⟨nodes, receiveOk, missed⟩ := result
  simp only at selfKept none_failed distinct accepted each
  have reached : ∃ pending, (receivePhase sha256Hex cluster run cluster.self.memory run.newSecret).nodes =
      (visit revokePending cluster.self.memory run.rollback receiveOk
        (Function.update nodes cluster.selfId { cluster.self with pending })).1 := by
    cases write : run.selfPending with
    | done => exact absurd write unstaged
    | failed e =>
      refine ⟨cluster.self.pending, ?_⟩
      simp only [receivePhase, visited, write, writeFile, selfKept, none_failed]
      rfl
    | torn e length =>
      refine ⟨some (cut length run.newSecret), ?_⟩
      simp only [receivePhase, visited, write, writeFile, selfKept, none_failed]
      rfl
  obtain ⟨pending, final⟩ := reached
  simp only [final]
  refine ⟨?_, fun id member => ?_⟩
  · obtain ⟨left, same, -⟩ := revoked_spec run receiveOk distinct
      (Function.update nodes cluster.selfId { cluster.self with pending }) cluster.self.memory cluster.selfId
    rw [same, Function.update_self]
    rfl
  · obtain ⟨left, same, gone⟩ := revoked_spec run receiveOk distinct
      (Function.update nodes cluster.selfId { cluster.self with pending }) cluster.self.memory id
    rw [Function.update_of_ne (cluster.ne_self member), each id member] at same gone
    rw [same]
    refine ⟨rfl, gone.trans ?_⟩
    have unaffected : Removed { cluster.nodes id with pending := some run.newSecret } cluster.self.memory
        (run.rollback id) ↔ Removed (cluster.nodes id) cluster.self.memory (run.rollback id) := Iff.rfl
    simp [accepted id member, unaffected]

theorem selfCommit_active (node : Node) (new : String) (count : Nat) (io : CommitIo) (held : node.pending = some new) :
    ((node.active.isSome → io.backup = .done) ∧ io.rename = none →
      (selfCommit sha256Hex node new count io).1.active = some new) ∧
    (¬((node.active.isSome → io.backup = .done) ∧ io.rename = none) →
      (selfCommit sha256Hex node new count io).1.active = node.active) := by
  simp only [selfCommit, Node.backedUp]
  cases active : node.active with
  | none =>
    cases rename : io.rename with
    | none => exact ⟨fun _ => held, fun failed => absurd ⟨fun impossible => absurd impossible Bool.false_ne_true, rfl⟩ failed⟩
    | some e => exact ⟨fun commits => absurd commits.2 (Option.some_ne_none e), fun _ => active⟩
  | some content =>
    cases backup : io.backup with
    | failed e => exact ⟨fun commits => (by cases commits.1 rfl), fun _ => rfl⟩
    | torn e length => exact ⟨fun commits => (by cases commits.1 rfl), fun _ => rfl⟩
    | done =>
      cases rename : io.rename with
      | none => exact ⟨fun _ => held, fun failed => absurd ⟨fun _ => rfl, rfl⟩ failed⟩
      | some e => exact ⟨fun commits => absurd commits.2 (Option.some_ne_none e), fun _ => rfl⟩

/-- A run in which the new secret is pending everywhere: a commit that is not
acknowledged leaves its peer apart, or with a pending file. -/
theorem receivePhase_committed (received : ∀ id ∈ cluster.peers, Receives sha256Hex cluster run id)
    (staged : run.selfPending = .done) :
    let after := (receivePhase sha256Hex cluster run cluster.self.memory run.newSecret).nodes
    ((∃ id ∈ cluster.peers, ¬Commits sha256Hex cluster run id) → (after cluster.selfId).secret = cluster.self.secret ∧
      ∃ id ∈ cluster.peers, (after id).pending = some run.newSecret ∨ (after id).Promoted run.newSecret) ∧
    ((∀ id ∈ cluster.peers, Commits sha256Hex cluster run id) →
      (∀ id ∈ cluster.peers, (after id).Promoted run.newSecret) ∧
      (SelfCommits cluster run → (after cluster.selfId).active = some run.newSecret) ∧
      (¬SelfCommits cluster run → (after cluster.selfId).secret = cluster.self.secret)) := by
  obtain ⟨selfKept, none_failed, -, -, each⟩ := received_everywhere received
  generalize visited : visit (receiveNew sha256Hex run.newSecret) cluster.self.memory run.receive cluster.peers
    cluster.nodes = result at selfKept none_failed each
  obtain ⟨nodes, accepted, missed⟩ := result
  simp only at selfKept none_failed each
  have reached : receivePhase sha256Hex cluster run cluster.self.memory run.newSecret =
      commitPhase sha256Hex cluster run cluster.self.memory run.newSecret
        (Function.update nodes cluster.selfId { cluster.self with pending := some run.newSecret }) := by
    simp only [receivePhase, visited, staged, writeFile, selfKept]
    exact if_neg (not_not.mpr none_failed)
  have stagedPeer : ∀ id ∈ cluster.peers, Function.update nodes cluster.selfId
      { cluster.self with pending := some run.newSecret } id = { cluster.nodes id with pending := some run.newSecret } :=
    fun id member => (Function.update_of_ne (cluster.ne_self member) _ nodes).trans (each id member)
  obtain ⟨after, committed, failed⟩ := visit_spec (promoteNew sha256Hex run.newSecret) cluster.self.memory run.commit
    cluster.peers (Function.update nodes cluster.selfId { cluster.self with pending := some run.newSecret }) cluster.distinct
  have promoted : ∀ id ∈ cluster.peers, _ := fun id member => promote_tries sha256Hex cluster.self.memory run.newSecret
    { cluster.nodes id with pending := some run.newSecret } (run.commit id) (.inl rfl)
  have failedEmpty : (visit (promoteNew sha256Hex run.newSecret) cluster.self.memory run.commit cluster.peers
      (Function.update nodes cluster.selfId { cluster.self with pending := some run.newSecret })).2.2 = [] ↔
      ∀ id ∈ cluster.peers, Commits sha256Hex cluster run id := by
    rw [failed, List.filter_eq_nil_iff]
    refine forall₂_congr fun id member => ?_
    rw [stagedPeer id member]
    simp [Commits]
  simp only [reached, commitPhase]
  refine ⟨fun lost => ?_, fun all => ?_⟩
  · have some_failed := mt failedEmpty.mp (by simpa using lost)
    obtain ⟨id, member, unheard⟩ := lost
    rw [if_pos some_failed]
    simp only
    have rolledBack : ∀ other, other ∉ (visit (promoteNew sha256Hex run.newSecret) cluster.self.memory run.commit
        cluster.peers (Function.update nodes cluster.selfId { cluster.self with pending := some run.newSecret })).2.1 → _ :=
      fun other absent => (visit_spec (fun node caller io => apiRotateRollback node caller "committed" io)
        cluster.self.memory run.rollback _ (visit (promoteNew sha256Hex run.newSecret) cluster.self.memory run.commit
        cluster.peers (Function.update nodes cluster.selfId { cluster.self with pending := some run.newSecret })).1
        (committed ▸ cluster.distinct.filter _)).1 other |>.trans (if_neg absent)
    refine ⟨?_, id, member, ?_⟩
    · rw [Function.update_self, withoutPending_secret, rolledBack, after, if_neg cluster.others, Function.update_self]
      · rfl
      · rw [committed]
        exact fun inside => cluster.others (List.mem_of_mem_filter inside)
    · rw [Function.update_of_ne (cluster.ne_self member), rolledBack, after, if_pos member, stagedPeer id member]
      · exact (promoted id member).1
      · rw [committed, List.mem_filter, stagedPeer id member]
        exact fun inside => unheard inside.2
  · rw [if_neg (not_not.mpr (failedEmpty.mpr all))]
    simp only
    have selfStaged : (visit (promoteNew sha256Hex run.newSecret) cluster.self.memory run.commit cluster.peers
        (Function.update nodes cluster.selfId { cluster.self with pending := some run.newSecret })).1 cluster.selfId =
        { cluster.self with pending := some run.newSecret } := by
      rw [after, if_neg cluster.others, Function.update_self]
    refine ⟨fun id member => ?_, fun commits => ?_, fun stuck => ?_⟩
    · rw [Function.update_of_ne (cluster.ne_self member), after, if_pos member, stagedPeer id member]
      exact (promoted id member).2 (all id member)
    · rw [Function.update_self, selfStaged]
      exact (selfCommit_active _ run.newSecret _ run.selfCommit rfl).1 commits
    · rw [Function.update_self, selfStaged, Node.secret]
      exact congrArg loadClusterSecret ((selfCommit_active _ run.newSecret _ run.selfCommit rfl).2 stuck)

theorem Node.Promoted.secret {node : Node} (promoted : node.Promoted run.newSecret) : node.secret = run.newSecret := by
  rw [Node.secret, promoted.2]
  exact validSecretShape_loads run.newSecret run.newSecret_shape

theorem consistent_kept {after : String → Node}
    (settled : ∀ id ∈ cluster.peers, (cluster.nodes id).secret = cluster.self.secret)
    (self : (after cluster.selfId).secret = cluster.self.secret)
    (peers : ∀ id ∈ cluster.peers, (after id).secret = (cluster.nodes id).secret) :
    Consistent cluster cluster.self.secret run.newSecret after ↔ ∀ id ∈ cluster.peers, (after id).pending = none := by
  refine ⟨fun consistent => consistent.pending, fun pending => ⟨.inl ?_, pending⟩⟩
  intro id member
  rcases List.mem_cons.mp member with rfl | member
  · exact self
  · exact (peers id member).trans (settled id member)

theorem not_consistent {after : String → Node} {id : String} (fresh : run.newSecret ≠ cluster.self.secret)
    (self : (after cluster.selfId).secret = cluster.self.secret) (member : id ∈ cluster.peers)
    (apart : (after id).pending = some run.newSecret ∨ (after id).Promoted run.newSecret) :
    ¬Consistent cluster cluster.self.secret run.newSecret after := by
  intro consistent
  rcases apart with pending | promoted
  · have none := consistent.pending id member
    rw [pending] at none
    cases none
  · rcases consistent.secrets with old | new
    · exact fresh (promoted.secret.symm.trans (old id (List.mem_cons_of_mem _ member)))
    · exact fresh ((new cluster.selfId List.mem_cons_self).symm.trans self)

theorem consistent_iff (settled : ∀ id ∈ cluster.peers, (cluster.nodes id).secret = cluster.self.secret)
    (fresh : run.newSecret ≠ cluster.self.secret) :
    Consistent cluster cluster.self.secret run.newSecret (apiCoordinatedRotate sha256Hex cluster run).nodes ↔
      AllOrNothing sha256Hex cluster run := by
  by_cases ready : Ready cluster run
  · rw [rotate_ready ready]
    by_cases received : ∀ id ∈ cluster.peers, Receives sha256Hex cluster run id
    · have full : ¬∃ id ∈ cluster.peers, ¬Receives sha256Hex cluster run id := by simpa using received
      by_cases staged : run.selfPending = .done
      · obtain ⟨lost, all⟩ := receivePhase_committed received staged
        by_cases commits : ∀ id ∈ cluster.peers, Commits sha256Hex cluster run id
        · obtain ⟨promoted, done, stuck⟩ := all commits
          by_cases selfCommits : SelfCommits cluster run
          · refine iff_of_true ⟨.inr fun id member => ?_, fun id member => (promoted id member).1⟩
              ⟨absurd ready, fun _ some_missing => absurd some_missing full, fun _ _ failed => absurd staged failed,
                fun _ _ _ => ⟨commits, .inr selfCommits⟩⟩
            rcases List.mem_cons.mp member with rfl | member
            · rw [Node.secret, done selfCommits]
              exact validSecretShape_loads run.newSecret run.newSecret_shape
            · exact (promoted id member).secret
          · cases peers : cluster.peers with
            | nil =>
              refine iff_of_true ⟨.inl fun id member => ?_, fun id member => ?_⟩
                ⟨absurd ready, fun _ some_missing => absurd some_missing full, fun _ _ failed => absurd staged failed,
                  fun _ _ _ => ⟨commits, .inl peers⟩⟩
              · rw [peers, List.mem_singleton] at member
                exact member ▸ stuck selfCommits
              · rw [peers] at member
                cases member
            | cons first rest =>
              have member : first ∈ cluster.peers := peers ▸ List.mem_cons_self
              refine iff_of_false (not_consistent fresh (stuck selfCommits) member (.inr (promoted first member))) ?_
              intro agreed
              rcases (agreed.committed ready received staged).2 with none | selfDone
              · rw [peers] at none
                cases none
              · exact selfCommits selfDone
        · obtain ⟨self, id, member, apart⟩ := lost (by simpa using commits)
          exact iff_of_false (not_consistent fresh self member apart)
            fun agreed => commits (agreed.committed ready received staged).1
      · obtain ⟨self, peers⟩ := receivePhase_unstaged received staged
        rw [consistent_kept settled self fun id member => (peers id member).1]
        constructor
        · exact fun pending => ⟨absurd ready, fun _ some_missing => absurd some_missing full,
            fun _ _ _ id member => (peers id member).2.mp (pending id member), fun _ _ done => absurd done staged⟩
        · exact fun agreed id member => (peers id member).2.mpr (agreed.unstaged ready received staged id member)
    · have missing : ∃ id ∈ cluster.peers, ¬Receives sha256Hex cluster run id := by simpa using received
      obtain ⟨self, peers⟩ := receivePhase_unreceived missing
      rw [consistent_kept settled self fun id member => (peers id member).1]
      constructor
      · exact fun pending => ⟨absurd ready, fun _ _ id member => (peers id member).2.mp (pending id member),
          fun _ all => absurd all received, fun _ all => absurd all received⟩
      · exact fun agreed id member => (peers id member).2.mpr (agreed.unreceived ready missing id member)
  · rw [rotate_unready ready, consistent_kept settled rfl fun _ _ => rfl]
    exact ⟨fun pending => ⟨fun _ => pending, (absurd · ready), (absurd · ready), (absurd · ready)⟩,
      fun agreed => agreed.unready ready⟩

def RollbacksDelivered (sha256Hex : String → String) (cluster : Cluster) (run : Run) : Prop :=
  ∀ id ∈ (apiCoordinatedRotate sha256Hex cluster run).rolledBack, ∃ delivery ∈ run.rollback id, delivery.isServed = true

theorem rotation_consistent_iff (settled : ∀ id ∈ cluster.peers, (cluster.nodes id).secret = cluster.self.secret)
    (fresh : run.newSecret ≠ cluster.self.secret) :
    (RollbacksDelivered sha256Hex cluster run →
      Consistent cluster cluster.self.secret run.newSecret (apiCoordinatedRotate sha256Hex cluster run).nodes) ↔
    (RollbacksDelivered sha256Hex cluster run → AllOrNothing sha256Hex cluster run) :=
  imp_congr_right fun _ => consistent_iff settled fresh

end

def pairCluster : Cluster where
  selfId := "alpha"
  peers := ["beta"]
  distinct := by decide
  others := by decide
  nodes := fun _ => settledNode

def unheardCommit : Run where
  session := some false
  busy := false
  client := none
  drawn := fun i => [0xfe, 0xdc, 0xba, 0x98, 0x76, 0x54, 0x32, 0x10].getD (i.val % 8) 0
  preflight := fun _ => [.served none true (some protocolVersion) true]
  receive := fun _ => [.served none true .done true]
  commit := fun _ => [.served none true (smoothCommit "20260901120000") false]
  rollback := fun _ => []
  selfPending := .done
  cleanup := none
  selfCommit := smoothCommit "20260901120001"

theorem rotation_consistent_iff_sample :
    (RollbacksDelivered sampleSha256Hex pairCluster unheardCommit →
      Consistent pairCluster pairCluster.self.secret unheardCommit.newSecret
        (apiCoordinatedRotate sampleSha256Hex pairCluster unheardCommit).nodes) ↔
    (RollbacksDelivered sampleSha256Hex pairCluster unheardCommit →
      AllOrNothing sampleSha256Hex pairCluster unheardCommit) :=
  rotation_consistent_iff (fun _ _ => rfl) (by decide +kernel)

/-- The peer has the new secret, the coordinator the old one, and no rollback was sent. -/
theorem unheard_commit_divides : RollbacksDelivered sampleSha256Hex pairCluster unheardCommit ∧
    ¬Consistent pairCluster pairCluster.self.secret unheardCommit.newSecret
      (apiCoordinatedRotate sampleSha256Hex pairCluster unheardCommit).nodes := by
  have quiet : (apiCoordinatedRotate sampleSha256Hex pairCluster unheardCommit).rolledBack = [] := by decide +kernel
  have alpha : ((apiCoordinatedRotate sampleSha256Hex pairCluster unheardCommit).nodes "alpha").secret = firstSecret := by
    decide +kernel
  have beta : ((apiCoordinatedRotate sampleSha256Hex pairCluster unheardCommit).nodes "beta").secret = secondSecret := by
    decide +kernel
  have differ : firstSecret ≠ secondSecret := by decide +kernel
  constructor
  · intro id member
    rw [quiet] at member
    cases member
  · intro consistent
    rcases consistent.secrets with same | same
    · have joined := (same "alpha" (by decide)).trans (same "beta" (by decide)).symm
      exact differ (alpha.symm.trans (joined.trans beta))
    · have joined := (same "alpha" (by decide)).trans (same "beta" (by decide)).symm
      exact differ (alpha.symm.trans (joined.trans beta))

end SecretRotation
