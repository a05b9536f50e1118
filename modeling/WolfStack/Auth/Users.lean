import WolfStack.Effects.Program

/-! WolfStack users, their edits and the replication of the list from node to node. Every
request reads or writes a file, the clock, the lock or the network. A users file is
truncated in one step and written in the next. -/

namespace Auth
open Effects
open Effects.Program (send)

structure WolfUser where
  username : String
  passwordHash : String
  totpSecret : String
  totpEnabled : Bool
  role : String
  displayName : String
  email : String
  createdAt : String
  allowedClusters : List String
deriving DecidableEq, Repr

structure UserStore where
  users : List WolfUser
  version : Nat
deriving DecidableEq, Repr

/-- What a file is read as that is missing or does not parse. -/
def UserStore.default : UserStore := ⟨[], 0⟩

structure AuthConfig where
  authMode : String
  require2faWhenConfigured : Bool
  version : Nat
deriving DecidableEq, Repr

def AuthConfig.default : AuthConfig := ⟨"both", true, 0⟩

def find (users : List WolfUser) (username : String) : Option WolfUser := users.find? fun u => u.username = username

/-- `find_mut`, and what is done with the user that it finds. -/
def findMut (username : String) (change : WolfUser → WolfUser) : List WolfUser → Option (List WolfUser)
  | [] => none
  | u :: rest => if u.username = username then some (change u :: rest) else (findMut username change rest).map fun kept => u :: kept

/-- What admins and users do to the list: a password, an address, a code, the clusters. -/
inductive Edit where
  | add (user : WolfUser)
  | remove (username : String)
  | update (username : String) (change : WolfUser → WolfUser)

namespace Edit

def apply (users : List WolfUser) : Edit → Except String (List WolfUser)
  | .add user =>
    if (find users user.username).isSome then .error ("User '" ++ user.username ++ "' already exists") else .ok (users ++ [user])
  | .remove username =>
    let kept := users.filter fun u => u.username ≠ username
    if kept.length = users.length then .error ("User '" ++ username ++ "' not found") else .ok kept
  | .update username change =>
    match findMut username change users with
    | some changed => .ok changed
    | none => .error "User not found"

def Shows (users : List WolfUser) : Edit → Prop
  | .add user => user ∈ users
  | .remove username => ∀ u ∈ users, u.username ≠ username
  | .update username change => ∃ old, old.username = username ∧ change old ∈ users

theorem findMut_mem {username : String} {change : WolfUser → WolfUser} {users changed : List WolfUser}
    (found : findMut username change users = some changed) : ∃ old, old.username = username ∧ change old ∈ changed := by
  induction users generalizing changed with
  | nil => cases found
  | cons u rest ih =>
    unfold findMut at found
    split at found
    · rename_i named
      cases found
      exact ⟨u, named, List.mem_cons_self⟩
    · obtain ⟨kept, later, rfl⟩ := Option.map_eq_some_iff.mp found
      obtain ⟨old, named, member⟩ := ih later
      exact ⟨old, named, List.mem_cons_of_mem u member⟩

theorem apply_shows {edit : Edit} {users after : List WolfUser} (applied : edit.apply users = .ok after) : edit.Shows after := by
  cases edit with
  | add user =>
    simp only [apply] at applied
    split at applied
    · cases applied
    · cases applied
      exact List.mem_append_right users List.mem_cons_self
  | remove username =>
    simp only [apply] at applied
    split at applied
    · cases applied
    · cases applied
      intro u member
      exact of_decide_eq_true (List.mem_filter.mp member).2
  | update username change =>
    simp only [apply] at applied
    split at applied
    · rename_i changed found
      cases applied
      exact findMut_mem found
    · cases applied

end Edit

structure Bundle (Host : Type) where
  fromId : Host
  users : Option UserStore
  usersVersion : Nat
  auth : Option AuthConfig
  authVersion : Nat

/-- `taken` counts the edits accepted before the snapshot was; no program looks at it. -/
structure Posted (Host : Type) where
  bundle : Bundle Host
  taken : Nat

/-- `write_secure` is `openUsers`, which truncates the file, and then `saveUsers` or `adoptUsers`. `saveUsers` bears the
edit that led to it, for the record. -/
inductive Disk (Host : Type) : Type → Type where
  | loadUsers : Disk Host UserStore
  | openUsers : Disk Host Unit
  | saveUsers (edit : Edit) (store : UserStore) : Disk Host Unit
  | loadAuth : Disk Host AuthConfig
  | saveAuth (config : AuthConfig) : Disk Host Unit
  | nowMs : Disk Host Nat
  | post (bundle : Bundle Host) : Disk Host Unit
  | receive : Disk Host (Posted Host)
  | lock : Disk Host Unit
  | unlock : Disk Host Unit
  | usersNewer (posted : Posted Host) : Disk Host Bool
  | adoptUsers (posted : Posted Host) (store : UserStore) : Disk Host Unit
  | authNewer (posted : Posted Host) : Disk Host Bool
  | adoptAuth (posted : Posted Host) (config : AuthConfig) : Disk Host Unit

variable {Host : Type}

/-- Every save is stamped anew. -/
def UserStore.save (edit : Edit) (store : UserStore) : Program (Disk Host) Unit := do
  let now ← send .nowMs
  send .openUsers
  send (.saveUsers edit { store with version := now })

def AuthConfig.save (config : AuthConfig) : Program (Disk Host) Unit := do
  let now ← send .nowMs
  send (.saveAuth { config with version := now })

def editUsers (edit : Edit) : Program (Disk Host) (Except String Unit) := do
  let store ← send .loadUsers
  match edit.apply store.users with
  | .error reason => return .error reason
  | .ok users => do
    UserStore.save edit { store with users }
    return .ok ()

def controlPlaneSnapshot (host : Host) : Program (Disk Host) (Bundle Host) := do
  let users ← send .loadUsers
  let auth ← send .loadAuth
  return ⟨host, some users, users.version, some auth, auth.version⟩

def sweepReplicateControlPlane (host : Host) : Program (Disk Host) Unit := do
  let bundle ← controlPlaneSnapshot host
  send (.post bundle)

def applyUsers (posted : Posted Host) : Program (Disk Host) Bool := do
  if ← send (.usersNewer posted) then
    match posted.bundle.users with
    | some store => do
      send .openUsers
      send (.adoptUsers posted store)
      return true
    | none => return false
  else return false

def applyAuth (posted : Posted Host) : Program (Disk Host) Bool := do
  if ← send (.authNewer posted) then
    match posted.bundle.auth with
    | some config => do
      send (.adoptAuth posted config)
      return true
    | none => return false
  else return false

/-- The lock keeps other applies out, not edits. -/
def controlPlaneApply (posted : Posted Host) : Program (Disk Host) (Bool × Bool) := do
  send .lock
  let usersUpdated ← applyUsers posted
  let authUpdated ← applyAuth posted
  send .unlock
  return (usersUpdated, authUpdated)

def controlPlaneReceive : Program (Disk Host) (Bool × Bool) := do
  let posted ← send .receive
  controlPlaneApply posted

end Auth
