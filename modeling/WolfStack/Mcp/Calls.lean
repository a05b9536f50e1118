import WolfStack.Mcp.OAuth
import WolfStack.Effects.Schedule

/-! Calls on the store. Each takes the lock once or twice and reads the clock and the
account files without it; a restart ends every call of the process and loads the file. -/

namespace Mcp
open Effects
open Effects.Program (send)
open Std (TreeMap)

inductive Scope where
  | grant (id : String)
  | user (username : String)
  | client (clientId : String)
  | all
deriving DecidableEq, Repr

def Scope.covers (g : Grant) : Scope → Bool
  | .grant id => g.id = id
  | .user username => g.username = username
  | .client clientId => g.clientId = clientId
  | .all => true

/-- `created` comes with the number of events up to the approval it rests on, `rotated`,
`presented` and `caught` with the hash of the refresh token and the time of the call. -/
inductive Event where
  | approved
  | created (grant : Grant) (approval : Nat)
  | used (grantId : String)
  | rotated (grantId hash : String) (at_ : Int)
  | presented (hash : String) (at_ : Int)
  | caught (grantId hash : String) (at_ : Int)
  | revoked (scope : Scope)
deriving DecidableEq, Repr

inductive Section : Type → Type where
  | now : Section Int
  | authority (username : String) (source : AuthSource) (wanted : List String) : Section (Option UserAuthority)
  | registerClient (clientName : Option String) (redirectUris : List String) (source : String) (t : Int) :
      Section (Except String Client)
  | list : Section Persisted
  | deleteClient (clientId : String) : Section (Except String Bool)
  | beginPending (p : PendingAuth) : Section (Except String String)
  | peekPending (id : String) : Section (Option PendingAuth)
  | takePending (id : String) (approver : Option String) : Section (Option PendingAuth)
  | issueCode (p : PendingAuth) (username : String) (source : AuthSource) (granted : List String) (t : Int) :
      Section (Except String String)
  | consumeCode (code clientId redirectUri codeVerifier : String) (resource : Option String) (t : Int) :
      Section (Except TokenError AuthCode)
  | createGrant (code clientId : String) (ac : AuthCode) (auth : UserAuthority) (scopes : List String) (t : Int) :
      Section (Except TokenError TokenSet)
  | findGrant (refreshToken clientId : String) (resource : Option String) (t : Int) : Section (Except TokenError Grant)
  | rotate (grant : Grant) (auth : Option UserAuthority) (requested : Option (List String)) (t : Int) :
      Section (Except TokenError TokenSet)
  | validateAccess (token resource : String) (t : Int) : Section (Option AccessInfo)
  | revokeToken (token : String) (clientId : Option String) : Section (Except String Unit)
  | revokeGrant (grantId : String) : Section (Except String Bool)
  | revokeUser (username : String) : Section (Except String Nat)
  | revokeAll : Section (Except String Nat)

def Section.run (prim : Primitives) (s : OAuthStore) (clock : Int) (chance : Chance) : {β : Type} → Section β → β × OAuthStore
  | _, .now => (clock, s)
  | _, .authority username source _ => (chance.authority username source, s)
  | _, .registerClient clientName redirectUris source t => s.registerClient clientName redirectUris source t chance
  | _, .list => ((s.pruned clock).inner.snapshot, s.pruned clock)
  | _, .deleteClient clientId => s.deleteClient clientId chance
  | _, .beginPending p => s.beginPending p clock chance
  | _, .peekPending id => s.peekPending id clock
  | _, .takePending id _ => s.takePending id clock
  | _, .issueCode p username source granted t => OAuthStore.issueCode prim s p username source granted t chance
  | _, .consumeCode code clientId redirectUri codeVerifier resource t =>
    OAuthStore.consumeCode prim s code clientId redirectUri codeVerifier resource t chance
  | _, .createGrant code clientId ac auth scopes t => OAuthStore.createGrant prim s code clientId ac auth scopes t chance
  | _, .findGrant refreshToken clientId resource t => OAuthStore.findGrant prim s refreshToken clientId resource t chance
  | _, .rotate grant auth requested t => OAuthStore.rotate prim s grant auth requested t chance
  | _, .validateAccess token resource t => OAuthStore.validateAccess prim s token resource t
  | _, .revokeToken token clientId => OAuthStore.revokeToken prim s token clientId chance
  | _, .revokeGrant grantId => s.revokeGrant grantId chance
  | _, .revokeUser username => s.revokeUser username chance
  | _, .revokeAll => s.revokeAll chance

variable {ε : Type}

def registerClient (prim : Primitives) (clientName : Option String) (redirectUris : List String) (source : String) :
    Program Section (Except String Client) := do
  if redirectUris = [] then pure (.error "redirect_uris is required")
  else if maxRedirectUris < redirectUris.length then pure (.error "at most 5 redirect_uris")
  else match redirectUris.forM prim.validateRedirectUri with
  | .error e => pure (.error e)
  | .ok () =>
    let t ← send .now
    send (.registerClient clientName redirectUris source t)

/-- The consent page's form: the request is taken up once its user has signed in. -/
def approve (id username : String) (source : AuthSource) (granted : List String) : Program Section (Except String String) := do
  match ← send (.takePending id (some username)) with
  | none => pure (.error "This authorization request has expired or was already used.")
  | some p =>
    let t ← send .now
    send (.issueCode p username source granted t)

def exchangeCode (code clientId redirectUri codeVerifier : String) (resource : Option String) :
    Program Section (Except TokenError TokenSet) := do
  let t ← send .now
  match ← send (.consumeCode code clientId redirectUri codeVerifier resource t) with
  | .error e => pure (.error e)
  | .ok ac =>
    match ← send (.authority ac.username ac.source ac.scopes) with
    | none => pure (.error (.invalidGrant "the approving user no longer exists or may not use MCP"))
    | some auth =>
      let scopes := ac.scopes.filter fun s => auth.allowedScopes.contains s
      if scopes = [] then pure (.error (.invalidScope "the approving user may no longer hold any of the granted scopes"))
      else send (.createGrant code clientId ac auth scopes t)

def refresh (refreshToken clientId : String) (resource : Option String) (requested : Option (List String)) :
    Program Section (Except TokenError TokenSet) := do
  let t ← send .now
  match ← send (.findGrant refreshToken clientId resource t) with
  | .error e => pure (.error e)
  | .ok grant =>
    let auth ← send (.authority grant.username grant.source grant.scopes)
    send (.rotate grant auth requested t)

def validateAccess (token resource : String) : Program Section (Option AccessInfo) := do
  let t ← send .now
  send (.validateAccess token resource t)

def Section.Single : {β : Type} → Section β → Prop
  | _, .list | _, .deleteClient _ | _, .beginPending _ | _, .peekPending _ | _, .takePending _ none | _, .revokeToken _ _
  | _, .revokeGrant _ | _, .revokeUser _ | _, .revokeAll => True
  | _, _ => False

inductive Call (prim : Primitives) : Program Section Unit → Prop
  | single {β : Type} {operation : Section β} (single : operation.Single) : Call prim (.request operation fun _ => .pure ())
  | register (clientName : Option String) (redirectUris : List String) (source : String) :
      Call prim ((registerClient prim clientName redirectUris source).bind fun _ => .pure ())
  | approve (id username : String) (source : AuthSource) (granted : List String) :
      Call prim ((approve id username source granted).bind fun _ => .pure ())
  | exchange (code clientId redirectUri codeVerifier : String) (resource : Option String) :
      Call prim ((exchangeCode code clientId redirectUri codeVerifier resource).bind fun _ => .pure ())
  | refresh (refreshToken clientId : String) (resource : Option String) (requested : Option (List String)) :
      Call prim ((refresh refreshToken clientId resource requested).bind fun _ => .pure ())
  | validate (token resource : String) : Call prim ((validateAccess token resource).bind fun _ => .pure ())

abbrev CallId := Nat × Nat

/-- An approval that is neither a code nor a grant, with who gave it and when. -/
structure Carried where
  call : CallId
  username : String
  approval : Nat
deriving DecidableEq

/-- From `log` on, what nobody reads: the events so far, the newest first; the ids and hashes
in use; whose refresh hash each is; the approval behind each code; and the approvals that calls
have in hand. -/
structure Server where
  store : OAuthStore
  clock : Int
  started : Int
  boot : Nat
  log : List Event
  named : List String
  owners : String → Option String
  approvals : String → Nat
  carried : List Carried

def Chance.names (prim : Primitives) (chance : Chance) : List String :=
  [chance.randomToken "wsc_", chance.randomToken "wsp_", chance.randomToken "wsg_",
    prim.secretHash "code" (chance.randomToken "wsa_"), prim.secretHash "access" (chance.randomToken "wsat_"),
    prim.secretHash "refresh" (chance.randomToken "wsrt_")]

namespace Server

def drop (s : Server) (call : CallId) : List Carried := s.carried.filter fun entry => entry.call ≠ call

def holding (s : Server) (call : CallId) : Option Carried := s.carried.find? fun entry => entry.call = call

def approvalOf (s : Server) (call : CallId) : Nat := (s.holding call).elim 0 fun entry => entry.approval

def note (s : Server) (ok : Bool) (event : Event) : Server := if ok then { s with log := event :: s.log } else s

def theft (prim : Primitives) (d : Inner) (refreshToken : String) (t : Int) : Option String :=
  let h := prim.secretHash "refresh" refreshToken
  d.retiredIndex[h]?.filter fun id => (OAuthStore.retryOf d id h t).isNone && d.grants.contains id

/-- What is recorded of a section; `s` has the new store already, `before` the old one. -/
def record (prim : Primitives) (call : CallId) (chance : Chance) (before : Inner) (s : Server) :
    {β : Type} → Section β → β → Server
  | _, .authority _ _ wanted, auth =>
    if auth.any fun a => wanted.any fun scope => a.allowedScopes.contains scope then s else { s with carried := s.drop call }
  | _, .deleteClient clientId, value => { s with named := clientId :: s.named }.note value.isOk (.revoked (.client clientId))
  | _, .takePending _ approver, value =>
    match value, approver with
    | some _, some username => { s with
      log := .approved :: s.log
      carried := ⟨call, username, s.log.length + 1⟩ :: s.drop call }
    | _, _ => s
  | _, .issueCode .., value => { s with
    approvals := if value.isOk then Function.update s.approvals (prim.secretHash "code" (chance.randomToken "wsa_")) (s.approvalOf call)
      else s.approvals
    carried := s.drop call }
  | _, .consumeCode code _ _ _ _ _, value =>
    match value with
    | .error _ => s
    | .ok ac => { s with carried := ⟨call, ac.username, s.approvals (prim.secretHash "code" code)⟩ :: s.drop call }
  | _, .createGrant .., value =>
    match value, s.store.inner.grants[chance.randomToken "wsg_"]? with
    | .ok _, some g => { s with
      log := .created g (s.approvalOf call) :: s.log
      owners := Function.update s.owners g.refreshHash (some g.id)
      carried := s.drop call }
    | _, _ => { s with carried := s.drop call }
  | _, .findGrant refreshToken _ _ t, _ =>
    let h := prim.secretHash "refresh" refreshToken
    let presented := s.note true (.presented h t)
    match theft prim (before.prune t) refreshToken t with
    | none => presented
    | some id => presented.note chance.written.isOk (.caught id h t)
  | _, .rotate grant _ _ t, value =>
    match value, before.grants[grant.id]? with
    | .ok _, some g => { s with
      log := .rotated grant.id g.refreshHash t :: .used grant.id :: s.log
      owners := Function.update s.owners (prim.secretHash "refresh" (chance.randomToken "wsrt_")) (some grant.id) }
    | _, _ => s
  | _, .validateAccess _ _ _, value =>
    match value with
    | none => s
    | some info => s.note true (.used info.grantId)
  | _, .revokeGrant grantId, value => s.note value.isOk (.revoked (.grant grantId))
  | _, .revokeUser username, value => s.note value.isOk (.revoked (.user username))
  | _, .revokeAll, value => s.note value.isOk (.revoked .all)
  | _, _, _ => s

def perform (prim : Primitives) (call : CallId) (s : Server) (chance : Chance) {β : Type} (operation : Section β) : β × Server :=
  let (value, store) := operation.run prim s.store s.clock chance
  (value, { s with store, named := chance.names prim ++ s.named }.record prim call chance s.store.inner operation value)

def Fresh (prim : Primitives) (s : Server) (chance : Chance) : Prop := ∀ name ∈ chance.names prim, name ∉ s.named

def restart (s : Server) : Server := { s with
  store := OAuthStore.load s.store.file
  started := s.clock
  boot := s.boot + 1
  carried := [] }

/-- Nothing has been registered or approved yet. -/
structure New (s : Server) : Prop where
  store : s.store = OAuthStore.load ⟨[], []⟩
  started : s.started ≤ s.clock
  log : s.log = []
  owners : ∀ h, s.owners h = none
  carried : s.carried = []

end Server

/-- Time passes, and the process may be started again. Calls are not cut off otherwise. -/
def serverSystem (prim : Primitives) (permitted : Server → Chance → {β : Type} → Section β → Prop) :
    System Server Section CallId Unit where
  moves before after := (∃ clock, before.clock ≤ clock ∧ after = { before with clock }) ∨ after = before.restart
  bodies _ := { program | Call prim program }
  commits call _ before operation value after := before.boot = call.1 ∧ ∃ chance,
    before.Fresh prim chance ∧ permitted before chance operation ∧ (value, after) = before.perform prim call chance operation
  stops _ _ := False

end Mcp
