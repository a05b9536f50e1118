import WolfStack.SecretRotation.AtRest

/-! The secret files of a node and the requests of a rotation that change them, after
`secret_rotation.rs`. What a file operation does is a fate, given with the request. -/

namespace SecretRotation
open Auth

structure Node where
  path : String
  active : Option String
  pending : Option String
  /-- by the time stamp their names end in -/
  backups : List (String × String)
  memory : String
  rejectDefault : Option String
  acceptDefault : Option String
  recorded : List IpAddr
  stores : Stores

def Node.authority (node : Node) : Authority :=
  ⟨node.active, node.memory, node.rejectDefault, node.acceptDefault, node.recorded⟩

def Node.secret (node : Node) : String := loadClusterSecret node.active

def Node.pendingPath (node : Node) : String := node.path ++ ".pending"

def Node.backupPath (node : Node) (stamp : String) : String := node.path ++ ".bak." ++ stamp

def Node.restart (node : Node) : Node := { node with memory := node.secret }

inductive WriteFate where
  | done
  | failed (error : String)
  | torn (error : String) (length : Nat)
deriving DecidableEq, Repr

def cut (length : Nat) (text : String) : String := String.ofList (text.toList.take length)

/-- `write_secure`, and `fs::copy` of a text that was read. -/
def writeFile (file : Option String) (text : String) : WriteFate → Option String × Except String Unit
  | .done => (some text, .ok ())
  | .failed e => (file, .error e)
  | .torn e length => (some (cut length text), .error e)

def storeBackup (backups : List (String × String)) (stamp : String) (content : Option String) : List (String × String) :=
  match content with
  | some text => (stamp, text) :: backups.filter fun backup => backup.1 ≠ stamp
  | none => backups

def byName (backups : List (String × String)) : List (String × String) :=
  backups.mergeSort fun first second => decide (first.1 ≤ second.1)

def newestBackup (backups : List (String × String)) : Option (String × String) := (byName backups).getLast?

def backupRetentionCount : Nat := 5

/-- The oldest backups go, those that can be removed. -/
def pruneOldBackups (listable : Bool) (stuck : String → Bool) (backups : List (String × String)) :
    List (String × String) :=
  if !listable || backups.length ≤ backupRetentionCount then backups
  else
    let sorted := byName backups
    let toDelete := sorted.length - backupRetentionCount
    (sorted.take toDelete).filter (fun backup => stuck backup.1) ++ sorted.drop toDelete

structure Refusal where
  status : Nat
  error : String
deriving DecidableEq, Repr

/-- What authentication reads of a request: its secret header, where it comes from, and
whether its node signature passes. -/
structure Caller where
  secret : String
  peer : Option IpAddr
  signature : Bool
deriving DecidableEq, Repr

def Node.admits (node : Node) (caller : Caller) : Bool :=
  node.authority.validateInterNodeSecretFrom caller.secret caller.peer && caller.signature

def requireAuth (node : Node) (caller : Caller) : Except Refusal Unit :=
  if node.authority.validateInterNodeSecretFrom caller.secret caller.peer then
    if caller.signature then .ok () else .error ⟨403, "Node signature rejected"⟩
  else .error ⟨403, "Invalid cluster secret"⟩

section
variable (sha256Hex : String → String)

structure ReceiveRequest where
  newSecret : String
  fingerprint : String

structure ReceiveAck where
  fingerprint : String
  pendingPath : String
deriving DecidableEq, Repr

def apiRotateReceive (node : Node) (caller : Caller) (body : ReceiveRequest) (write : WriteFate) :
    Node × Except Refusal ReceiveAck :=
  match requireAuth node caller with
  | .error refusal => (node, .error refusal)
  | .ok () =>
    if !validSecretShape body.newSecret then
      (node, .error ⟨400, "new_secret has invalid shape (expect wsk_ + 64 lowercase hex)"⟩)
    else if sha256Hex body.newSecret ≠ body.fingerprint then
      (node, .error ⟨400, "fingerprint mismatch — request body may be corrupt"⟩)
    else match writeFile node.pending body.newSecret write with
      | (pending, .error e) => ({ node with pending }, .error ⟨500, s!"could not write pending file: {e}"⟩)
      | (pending, .ok ()) => ({ node with pending }, .ok ⟨sha256Hex body.newSecret, node.pendingPath⟩)

/-- How the file operations of a commit go: reading the pending secret, backing up the
active one under a time stamp, promoting, putting a backup back, re-keying, pruning. -/
structure CommitIo where
  read : Option String
  stamp : String
  backup : WriteFate
  rename : Option String
  restore : WriteFate
  passes : Store → PassFate
  listable : Bool
  stuck : String → Bool

def firstLine (text : String) : String := String.ofList (text.toList.takeWhile fun c => c ≠ '\n' && c ≠ '\r')

def Node.backedUp (node : Node) (io : CommitIo) : Node × Except String Unit :=
  match node.active with
  | none => (node, .ok ())
  | some content => match writeFile (node.backups.lookup io.stamp) content io.backup with
    | (file, result) => ({ node with backups := storeBackup node.backups io.stamp file }, result)

def Node.putBack (node : Node) (io : CommitIo) : Node :=
  match node.active, node.backups.lookup io.stamp with
  | none, some content => { node with active := (writeFile none content io.restore).1 }
  | _, _ => node

def Node.promoted (node : Node) : Node := { node with active := node.pending, pending := none }

def Node.rekeyed (node : Node) (old new : String) (io : CommitIo) : Node :=
  { node with stores := (reencryptAllAtRest old new io.passes node.stores).1 }

def Node.pruned (node : Node) (io : CommitIo) : Node :=
  { node with backups := pruneOldBackups io.listable io.stuck node.backups }

structure CommitAck where
  backupPath : String
  activePath : String
  restartRequired : Bool
  message : String
deriving DecidableEq, Repr

def commitMessage : String :=
  "Cluster secret committed. The in-memory secret will update on the next restart of wolfstack on this node. " ++
  "Until then, both the old and new secret are accepted (require_auth checks both in-memory and on-disk values)."

def readPending (node : Node) (io : CommitIo) : Except String String :=
  match node.pending, io.read with
  | some content, none => .ok content
  | some _, some e => .error e
  | none, _ => .error "No such file or directory (os error 2)"

def apiRotateCommit (node : Node) (caller : Caller) (fingerprint : String) (io : CommitIo) :
    Node × Except Refusal CommitAck :=
  match requireAuth node caller with
  | .error refusal => (node, .error refusal)
  | .ok () => match readPending node io with
    | .error e => (node, .error ⟨409, s!"no pending secret at {node.pendingPath}: {e}"⟩)
    | .ok content =>
      let pendingTrimmed := firstLine content
      if sha256Hex pendingTrimmed ≠ fingerprint then
        (node, .error ⟨409, "pending file fingerprint does not match commit request"⟩)
      else match node.backedUp io with
        | (backedUp, .error e) => (backedUp, .error ⟨500, s!"could not back up active secret: {e}"⟩)
        | (backedUp, .ok ()) => match io.rename with
          | some e => (backedUp.putBack io, .error ⟨500, s!"could not promote pending to active: {e}"⟩)
          | none =>
            let rekeyed := if pendingTrimmed = "" then backedUp.promoted
              else backedUp.promoted.rekeyed node.secret pendingTrimmed io
            (rekeyed.pruned io, .ok ⟨node.backupPath io.stamp, node.path, true, commitMessage⟩)

/-- How the file operations of a rollback go: removing the pending secret, restoring. -/
structure RollbackIo where
  remove : Option String
  restore : WriteFate

structure RollbackAck where
  action : String
  restoredFrom : Option String
deriving DecidableEq, Repr

def apiRotateRollback (node : Node) (caller : Caller) (stage : String) (io : RollbackIo) :
    Node × Except Refusal RollbackAck :=
  match requireAuth node caller with
  | .error refusal => (node, .error refusal)
  | .ok () =>
    if stage = "pending" then
      if node.pending.isSome then match io.remove with
        | none => ({ node with pending := none }, .ok ⟨"deleted-pending", none⟩)
        | some e => (node, .error ⟨500, s!"could not remove pending file: {e}"⟩)
      else (node, .ok ⟨"no-pending-found", none⟩)
    else if stage = "committed" then match newestBackup node.backups with
      | none => (node, .error ⟨409, "no .bak file found to restore from"⟩)
      | some (stamp, content) => match writeFile node.active content io.restore with
        | (active, .error e) => ({ node with active }, .error ⟨500, s!"could not restore from backup: {e}"⟩)
        | (active, .ok ()) => ({ node with active }, .ok ⟨"restored-from-backup", some (node.backupPath stamp)⟩)
    else (node, .error ⟨400, s!"invalid stage '{stage}' — expected 'pending' or 'committed'"⟩)

end

def firstSecret : String := "wsk_0123456789abcdef0123456789abcdef0123456789abcdef0123456789abcdef"

def secondSecret : String := "wsk_fedcba9876543210fedcba9876543210fedcba9876543210fedcba9876543210"

def settledNode : Node where
  path := "/etc/wolfstack/custom-cluster-secret"
  active := some firstSecret
  pending := none
  backups := []
  memory := firstSecret
  rejectDefault := none
  acceptDefault := none
  recorded := []
  stores := fun _ => []

/-- The digest of the two secrets. -/
def sampleSha256Hex (text : String) : String :=
  if text = firstSecret then "21a30a39afdf01ab11e096654df3eff45104e746787370266254114b52a5f1c8"
  else if text = secondSecret then "bbbbd293c8a598805a3cae3f7c09b3f494b38969997f4e39b837cf8b64483d50"
  else ""

def holder : Caller := ⟨firstSecret, none, true⟩

def smoothCommit (stamp : String) : CommitIo where
  read := none
  stamp
  backup := .done
  rename := none
  restore := .done
  passes := fun _ => .saved
  listable := true
  stuck := fun _ => false

def smoothRollback : RollbackIo := ⟨none, .done⟩

end SecretRotation
