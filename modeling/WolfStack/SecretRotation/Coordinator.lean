import Mathlib.Data.List.Nodup
import Mathlib.Logic.Function.Basic
import WolfStack.SecretRotation.Rollback

/-! The coordinated rotation: preflight, receive and commit on every peer, one URL
after another, and the rollbacks of a run that fails. The network decides which
requests are served and which replies are heard. -/

namespace SecretRotation
open Auth

def hexDigit (value : Nat) : Char := "0123456789abcdef".toList.getD value '0'

def hexPair (byte : UInt8) : List Char := [hexDigit (byte.toNat / 16), hexDigit (byte.toNat % 16)]

/-- `generate_cluster_secret`, from the 32 bytes it drew. -/
def generateClusterSecret (drawn : Fin 32 → UInt8) : String :=
  String.ofList ('w' :: 's' :: 'k' :: '_' :: (List.ofFn drawn).flatMap hexPair)

theorem hexDigit_lower (value : Nat) (small : value < 16) :
    (hexDigit value).utf8Size = 1 ∧ isAsciiHexdigit (hexDigit value) = true ∧
      isAsciiUppercase (hexDigit value) = false := by
  interval_cases value <;> decide

theorem hexPair_lower (byte : UInt8) (c : Char) (member : c ∈ hexPair byte) :
    c.utf8Size = 1 ∧ isAsciiHexdigit c = true ∧ isAsciiUppercase c = false := by
  have bound := byte.toNat_lt
  simp only [hexPair, List.mem_cons, List.not_mem_nil, or_false] at member
  rcases member with rfl | rfl
  · exact hexDigit_lower _ (by omega)
  · exact hexDigit_lower _ (by omega)

theorem utf8ByteSize_ofList (chars : List Char) (single : ∀ c ∈ chars, c.utf8Size = 1) :
    (String.ofList chars).utf8ByteSize = chars.length := by
  induction chars with
  | nil => rfl
  | cons c rest ih =>
    rw [List.forall_mem_cons] at single
    rw [String.ofList_cons, String.utf8ByteSize_append, ih single.2, List.length_cons, String.utf8ByteSize_singleton,
      single.1]
    omega

theorem generateClusterSecret_shape (drawn : Fin 32 → UInt8) : validSecretShape (generateClusterSecret drawn) = true := by
  have lower : ∀ c ∈ (List.ofFn drawn).flatMap hexPair,
      c.utf8Size = 1 ∧ isAsciiHexdigit c = true ∧ isAsciiUppercase c = false := by
    intro c member
    obtain ⟨byte, -, inPair⟩ := List.mem_flatMap.mp member
    exact hexPair_lower byte c inPair
  have length : ((List.ofFn drawn).flatMap hexPair).length = 64 := by
    simp [hexPair]
  rw [validSecretShape, generateClusterSecret, String.toList_ofList]
  simp only [Bool.and_eq_true, beq_iff_eq, List.all_eq_true]
  refine ⟨?_, fun c member => ?_⟩
  · rw [utf8ByteSize_ofList _ fun c member => (lower c member).1]
    exact length
  · simp [lower c member]

/-- What becomes of one request: it is lost, or served, with the file operations going
as they may, and then its reply is heard or not. -/
inductive Delivery (Io : Type) where
  | lost
  | served (peer : Option IpAddr) (signature : Bool) (io : Io) (heard : Bool)

def Delivery.isServed : Delivery Io → Bool
  | .lost => false
  | .served .. => true

def tries (handler : Node → Caller → Io → Node × Except Refusal α) (secret : String) :
    Node → List (Delivery Io) → Node × Bool
  | node, [] => (node, false)
  | node, .lost :: rest => tries handler secret node rest
  | node, .served peer signature io heard :: rest =>
    match handler node ⟨secret, peer, signature⟩ io with
    | (after, .ok _) => if heard then (after, true) else tries handler secret after rest
    | (after, .error _) => tries handler secret after rest

def visit (handler : Node → Caller → Io → Node × Except Refusal α) (secret : String)
    (deliveries : String → List (Delivery Io)) : List String → (String → Node) → (String → Node) × List String × List String
  | [], nodes => (nodes, [], [])
  | id :: rest, nodes =>
    let (node, ok) := tries handler secret (nodes id) (deliveries id)
    let (after, accepted, failed) := visit handler secret deliveries rest (Function.update nodes id node)
    if ok then (after, id :: accepted, failed) else (after, accepted, id :: failed)

theorem visit_spec (handler : Node → Caller → Io → Node × Except Refusal α) (secret : String)
    (deliveries : String → List (Delivery Io)) (peers : List String) (nodes : String → Node) (distinct : peers.Nodup) :
    (∀ id, (visit handler secret deliveries peers nodes).1 id =
      if id ∈ peers then (tries handler secret (nodes id) (deliveries id)).1 else nodes id) ∧
    (visit handler secret deliveries peers nodes).2.1 =
      peers.filter (fun id => (tries handler secret (nodes id) (deliveries id)).2) ∧
    (visit handler secret deliveries peers nodes).2.2 =
      peers.filter (fun id => !(tries handler secret (nodes id) (deliveries id)).2) := by
  induction peers generalizing nodes with
  | nil => exact ⟨fun _ => rfl, rfl, rfl⟩
  | cons first rest ih =>
    obtain ⟨fresh, distinct⟩ := List.nodup_cons.mp distinct
    generalize tried : tries handler secret (nodes first) (deliveries first) = outcome
    obtain ⟨node, ok⟩ := outcome
    have same : ∀ id ∈ rest, Function.update nodes first node id = nodes id := by
      intro id member
      apply Function.update_of_ne
      rintro rfl
      exact fresh member
    obtain ⟨after, accepted, failed⟩ := ih (Function.update nodes first node) distinct
    have acceptedRest : rest.filter (fun id => (tries handler secret (Function.update nodes first node id) (deliveries id)).2) =
        rest.filter fun id => (tries handler secret (nodes id) (deliveries id)).2 :=
      List.filter_congr fun id member => by rw [same id member]
    have failedRest : rest.filter (fun id => !(tries handler secret (Function.update nodes first node id) (deliveries id)).2) =
        rest.filter fun id => !(tries handler secret (nodes id) (deliveries id)).2 :=
      List.filter_congr fun id member => by rw [same id member]
    have each : ∀ id, (visit handler secret deliveries rest (Function.update nodes first node)).1 id =
        if id ∈ first :: rest then (tries handler secret (nodes id) (deliveries id)).1 else nodes id := by
      intro id
      rw [after]
      by_cases here : id = first
      · subst here
        rw [if_neg fresh, Function.update_self, if_pos List.mem_cons_self, tried]
      · rw [Function.update_of_ne here]
        simp only [List.mem_cons, here, false_or]
    simp only [visit, tried]
    cases ok with
    | true =>
      refine ⟨each, ?_, ?_⟩
      · rw [if_pos rfl, List.filter_cons_of_pos (by rw [tried]), accepted, acceptedRest]
      · rw [if_pos rfl, List.filter_cons_of_neg (by simp [tried]), failed, failedRest]
    | false =>
      refine ⟨each, ?_, ?_⟩
      · rw [if_neg (by decide), List.filter_cons_of_neg (by simp [tried]), accepted, acceptedRest]
      · rw [if_neg (by decide), List.filter_cons_of_pos (by simp [tried]), failed, failedRest]

def protocolVersion : Nat := 1

/-- The version a peer answers with; a reply that is not an acknowledgement has none. -/
def apiRotatePreflight (node : Node) (caller : Caller) (version : Option Nat) : Node × Except Refusal (Option Nat) :=
  match requireAuth node caller with
  | .error refusal => (node, .error refusal)
  | .ok () => (node, .ok version)

def preflight (node : Node) (secret : String) : List (Delivery (Option Nat)) → Bool
  | [] => false
  | .lost :: rest => preflight node secret rest
  | .served peer signature version heard :: rest =>
    match (apiRotatePreflight node ⟨secret, peer, signature⟩ version).2 with
    | .ok answer => if heard then answer = some protocolVersion else preflight node secret rest
    | .error _ => preflight node secret rest

structure Cluster where
  selfId : String
  peers : List String
  distinct : peers.Nodup
  others : selfId ∉ peers
  nodes : String → Node

/-- Everything a run meets: the operator's session and whether it is read-only, another
rotation in flight, the client, the bytes drawn, the fate of each request at each of
the peer's URLs, and the coordinator's own file operations. -/
structure Run where
  session : Option Bool
  busy : Bool
  client : Option String
  drawn : Fin 32 → UInt8
  preflight : String → List (Delivery (Option Nat))
  receive : String → List (Delivery WriteFate)
  commit : String → List (Delivery CommitIo)
  rollback : String → List (Delivery RollbackIo)
  selfPending : WriteFate
  cleanup : Option String
  selfCommit : CommitIo

structure Rotated where
  fingerprint : String
  newSecret : String
  peerCount : Nat
  selfBackup : String
  report : ReencryptReport

/-- The nodes when a run returns, the peers it asked to roll back, and its answer. -/
structure Outcome where
  nodes : String → Node
  rolledBack : List String
  answer : Except Refusal Rotated

section
variable (sha256Hex : String → String)

def Node.withoutPending (node : Node) (cleanup : Option String) : Node :=
  match cleanup with
  | none => { node with pending := none }
  | some _ => node

def selfCommit (node : Node) (new : String) (peerCount : Nat) (io : CommitIo) : Node × Except Refusal Rotated :=
  match node.backedUp io with
  | (backedUp, .error e) => (backedUp, .error ⟨500, s!"self backup failed: {e}. Peers have committed; " ++
      s!"self is still on the old secret. Recovery: `sudo cp {node.pendingPath} {node.path}` on this node " ++
      "(the pending file is the new secret), then restart wolfstack."⟩)
  | (backedUp, .ok ()) => match io.rename with
    | some e => (backedUp, .error ⟨500, s!"self rename failed: {e}. Peers have committed; " ++
        s!"self is still on the old secret. Recovery: `sudo mv {node.pendingPath} {node.path}` on this node, " ++
        "then restart wolfstack."⟩)
    | none =>
      let pruned := backedUp.promoted.pruned io
      let (stores, report) := reencryptAllAtRest node.memory new io.passes node.stores
      let selfBackup := if (pruned.backups.lookup io.stamp).isSome then node.backupPath io.stamp else ""
      ({ pruned with stores }, .ok ⟨sha256Hex new, new, peerCount, selfBackup, report⟩)

/-- The new secret is pending everywhere. A commit that fails somewhere is rolled back
where it was acknowledged. -/
def commitPhase (cluster : Cluster) (run : Run) (old new : String) (staged : String → Node) : Outcome :=
  let promote := fun node caller io => apiRotateCommit sha256Hex node caller (sha256Hex new) io
  let (committed, commitOk, commitFail) := visit promote old run.commit cluster.peers staged
  if commitFail ≠ [] then
    let restore := fun node caller io => apiRotateRollback node caller "committed" io
    let restored := (visit restore old run.rollback commitOk committed).1
    ⟨Function.update restored cluster.selfId ((restored cluster.selfId).withoutPending run.cleanup), commitOk,
      .error ⟨409, s!"{commitFail.length} of {cluster.peers.length} peer commit(s) failed — attempted rollback " ++
        s!"on the {commitOk.length} that succeeded. Verify per-peer state before assuming recovery is complete."⟩⟩
  else
    let (node, answer) := selfCommit sha256Hex (committed cluster.selfId) new cluster.peers.length run.selfCommit
    ⟨Function.update committed cluster.selfId node, [], answer⟩

/-- Every peer is ready. The secret goes out, and is taken back where it was received
if it was not received everywhere. -/
def receivePhase (cluster : Cluster) (run : Run) (old new : String) : Outcome :=
  let send := fun node caller write => apiRotateReceive sha256Hex node caller ⟨new, sha256Hex new⟩ write
  let (received, receiveOk, receiveFail) := visit send old run.receive cluster.peers cluster.nodes
  let revoke := fun node caller io => apiRotateRollback node caller "pending" io
  if receiveFail ≠ [] then
    let revoked := (visit revoke old run.rollback receiveOk received).1
    ⟨Function.update revoked cluster.selfId ((revoked cluster.selfId).withoutPending run.cleanup), receiveOk,
      .error ⟨409, s!"{receiveFail.length} of {cluster.peers.length} peer(s) failed to receive the new secret — " ++
        "rotation rolled back, no secrets committed"⟩⟩
  else
    let self := received cluster.selfId
    match writeFile self.pending new run.selfPending with
    | (pending, .error e) =>
      ⟨(visit revoke old run.rollback receiveOk (Function.update received cluster.selfId { self with pending })).1,
        receiveOk, .error ⟨500, s!"could not write self .pending: {e} — peers rolled back"⟩⟩
    | (pending, .ok ()) =>
      commitPhase sha256Hex cluster run old new (Function.update received cluster.selfId { self with pending })

def apiCoordinatedRotate (cluster : Cluster) (run : Run) : Outcome :=
  let self := cluster.nodes cluster.selfId
  let refuse := fun status error => (⟨cluster.nodes, [], .error ⟨status, error⟩⟩ : Outcome)
  match run.session with
  | none => refuse 401 "coordinated rotation must be initiated by an operator session"
  | some true => refuse 403 <| "Your account is read-only (viewer role): rotating the cluster secret. " ++
      "Ask an administrator to make the change or to change your role."
  | some false =>
    if run.busy then refuse 409 <| "another rotation is already in progress on this node — wait for it to complete " ++
      "(check Settings → Security status), then retry"
    else if self.secret ≠ self.memory then
      refuse 409 <| "this coordinator node has a pending committed secret that needs a restart to take effect. " ++
        "Restart wolfstack on THIS node first (the new secret is already on disk), then retry rotation from the " ++
        "restarted coordinator."
    else match run.client with
    | some e => refuse 500 s!"client build: {e}"
    | none =>
      let unready := cluster.peers.filter fun id => !preflight (cluster.nodes id) self.memory (run.preflight id)
      if unready ≠ [] then
        refuse 409 s!"{unready.length} of {cluster.peers.length} peer(s) failed preflight — rotation aborted, no changes made"
      else receivePhase sha256Hex cluster run self.memory (generateClusterSecret run.drawn)

end

end SecretRotation
