import WolfStack.Auth.ClusterSecret
import Std.Data.TreeMap

/-! The OAuth 2.1 server of the MCP endpoint, after `mcp/oauth.rs`. What a method does
under the lock is one function here. What it cannot decide itself, how its random tokens
come out and whether the state file is written, is handed to it. -/

namespace Mcp
open Std (TreeMap)

def allScopes : List String := ["read", "logs", "containers", "vms", "backup"]
def codeTtlSecs : Int := 60
def accessTtlSecs : Int := 15 * 60
def refreshTtlSecs : Int := 30 * 24 * 3600
def grantMaxLifetimeSecs : Int := 90 * 24 * 3600
def pendingTtlSecs : Int := 10 * 60
def unusedClientTtlSecs : Int := 24 * 3600
def refreshRetryGraceSecs : Int := 10
def usedCodeMemorySecs : Int := 10 * 60
def maxClients : Nat := 200
def maxGrants : Nat := 1000
def maxPending : Nat := 500
def maxPendingPerClient : Nat := 10
def maxPendingPerSource : Nat := 20
def maxCodes : Nat := 500
def maxAccessTokens : Nat := 5000
def maxRedirectUris : Nat := 5
def maxRedirectUriLen : Nat := 512
def maxClientNameLen : Nat := 80
def maxStateLen : Nat := 512
def retiredRefreshKeep : Nat := 20

/-- What `url` finds in an address. -/
structure Url where
  scheme : String
  username : String
  password : Option String
  hostStr : Option String
  fragment : Option String

/-- SHA-256 in its two uses, and the `url` crate. -/
structure Primitives where
  secretHash : String → String → String
  challenge : String → String
  parseUrl : String → Except String Url

def validCodeVerifier (v : String) : Bool :=
  43 ≤ v.utf8ByteSize && v.utf8ByteSize ≤ 128 && v.toList.all fun c => c.isAlphanum || c == '-' || c == '.' || c == '_' || c == '~'

def Primitives.pkceS256Matches (p : Primitives) (verifier challenge : String) : Bool :=
  validCodeVerifier verifier && p.challenge verifier == challenge

def isControl (c : Char) : Bool := c.toNat < 0x20 || (0x7F ≤ c.toNat && c.toNat ≤ 0x9F)

def isLoopbackHost (host : String) : Bool := host == "localhost" || host == "127.0.0.1" || host == "[::1]" || host == "::1"

def Primitives.validateRedirectUri (p : Primitives) (raw : String) : Except String Unit := do
  if raw = "" ∨ maxRedirectUriLen < raw.utf8ByteSize then throw "redirect_uri must be 1-512 characters"
  if raw.toList.any fun c => isControl c || Auth.isWhitespace c then
    throw "redirect_uri must not contain whitespace or control characters"
  match p.parseUrl raw with
  | .error e => throw ("redirect_uri is not a valid URL: " ++ e)
  | .ok url =>
    if url.fragment.isSome then throw "redirect_uri must not contain a fragment"
    if url.username ≠ "" ∨ url.password.isSome then throw "redirect_uri must not contain credentials"
    let host := url.hostStr.getD ""
    if host = "" then throw "redirect_uri must have a host"
    if url.scheme = "https" ∨ (url.scheme = "http" ∧ isLoopbackHost host) then pure ()
    else if url.scheme = "http" then throw "http redirect URIs are only allowed for localhost / 127.0.0.1 / [::1]"
    else throw ("redirect URI scheme '" ++ url.scheme ++ "' is not allowed (https or loopback http only)")

def isSpoofingChar (c : Char) : Bool :=
  let code := c.toNat
  code == 0x061C || (0x200B ≤ code && code ≤ 0x200F) || (0x202A ≤ code && code ≤ 0x202E) ||
    (0x2060 ≤ code && code ≤ 0x2069) || code == 0xFEFF

def splitWhitespace (chars : List Char) : List (List Char) := (chars.splitOnP Auth.isWhitespace).filter (· ≠ [])

def sanitizeClientName (raw : Option String) : String :=
  let printable := ((raw.getD "").toList.filter fun c => !isSpoofingChar c).map fun c => if isControl c then ' ' else c
  let cleaned := [' '].intercalate (splitWhitespace printable)
  let truncated := cleaned.take maxClientNameLen
  if truncated = [] then "Unnamed client" else String.ofList truncated

def normalizeScopes (scopes : List String) : List String := allScopes.filter fun s => scopes.contains s

def scopesString (scopes : List String) : String := " ".intercalate scopes

inductive AuthSource where
  | wolfStack
  | linux
deriving DecidableEq, Repr

structure Client where
  clientId : String
  clientName : String
  redirectUris : List String
  createdAt : Int
  approvedAt : Option Int
  registeredFrom : String
deriving DecidableEq, Repr

structure Grant where
  id : String
  clientId : String
  clientName : String
  username : String
  source : AuthSource
  scopes : List String
  resource : String
  createdAt : Int
  lastUsedAt : Int
  refreshHash : String
  refreshExpiresAt : Int
  retiredRefreshHashes : List String
  lastRotatedAt : Int
  credentialFp : String
deriving DecidableEq, Repr

structure PendingAuth where
  clientId : String
  clientName : String
  redirectUri : String
  state : Option String
  codeChallenge : String
  scopes : List String
  resource : String
  createdAt : Int
  source : String

structure AuthCode where
  clientId : String
  redirectUri : String
  codeChallenge : String
  scopes : List String
  resource : String
  username : String
  source : AuthSource
  expiresAt : Int

structure AccessInfo where
  credentialFp : String
  grantId : String
  clientId : String
  username : String
  source : AuthSource
  scopes : List String
  resource : String
  expiresAt : Int

structure TokenSet where
  accessToken : String
  tokenType : String
  expiresIn : Int
  refreshToken : String
  scope : String

inductive TokenError where
  | invalidClient (text : String)
  | invalidGrant (text : String)
  | invalidScope (text : String)
  | invalidTarget (text : String)
  | serverError (text : String)
deriving DecidableEq, Repr

structure UserAuthority where
  allowedScopes : List String
  credentialFp : String

structure Persisted where
  clients : List Client
  grants : List Grant

structure Inner where
  clients : TreeMap String Client
  grants : TreeMap String Grant
  refreshIndex : TreeMap String String
  retiredIndex : TreeMap String String
  codes : TreeMap String AuthCode
  usedCodes : TreeMap String (String × Int)
  access : TreeMap String AccessInfo
  pending : TreeMap String PendingAuth

def values {V : Type} (table : TreeMap String V) : List V := table.toList.map fun entry => entry.2

theorem mem_values {V : Type} {table : TreeMap String V} {v : V} : v ∈ values table ↔ ∃ k : String, table[k]? = some v := by
  simp only [values, List.mem_map, Prod.exists, exists_eq_right, TreeMap.mem_toList_iff_getElem?_eq_some]

namespace Inner

def empty : Inner := ⟨∅, ∅, ∅, ∅, ∅, ∅, ∅, ∅⟩

def indexed (entries : List (String × String)) : TreeMap String String :=
  entries.foldl (fun index entry => index.insert entry.1 entry.2) ∅

def rebuildIndexes (d : Inner) : Inner := { d with
  refreshIndex := indexed ((values d.grants).map fun g => (g.refreshHash, g.id))
  retiredIndex := indexed ((values d.grants).flatMap fun g => g.retiredRefreshHashes.map fun r => (r, g.id)) }

/-- `remove_grant`; what it returns is what was found under the id. -/
def removeGrant (grantId : String) (d : Inner) : Inner :=
  match d.grants[grantId]? with
  | none => d
  | some g => { d with
    grants := d.grants.erase grantId
    refreshIndex := d.refreshIndex.erase g.refreshHash
    retiredIndex := g.retiredRefreshHashes.foldl (fun index r => index.erase r) d.retiredIndex
    access := d.access.filter fun _ a => a.grantId ≠ grantId }

def removeGrants (ids : List String) (d : Inner) : Inner := ids.foldl (fun d id => d.removeGrant id) d

def inUse (d : Inner) (c : Client) : Bool := (values d.grants).any fun g => g.clientId = c.clientId

def prune (t : Int) (d : Inner) : Inner :=
  let live := { d with
    codes := d.codes.filter fun _ c => t < c.expiresAt
    usedCodes := d.usedCodes.filter fun _ used => t < used.2
    access := d.access.filter fun _ a => t < a.expiresAt
    pending := d.pending.filter fun _ p => t < p.createdAt + pendingTtlSecs }
  let expired := ((values live.grants).filter fun g => g.refreshExpiresAt ≤ t).map fun g => g.id
  let kept := live.removeGrants expired
  let stale := (values kept.clients).filter fun c => c.approvedAt.isNone && c.createdAt + unusedClientTtlSecs ≤ t && !kept.inUse c
  { kept with clients := stale.foldl (fun clients c => clients.erase c.clientId) kept.clients }

def snapshot (d : Inner) : Persisted where
  clients := (values d.clients).mergeSort fun a b => a.createdAt < b.createdAt || (a.createdAt == b.createdAt && a.clientId ≤ b.clientId)
  grants := (values d.grants).mergeSort fun a b => a.createdAt < b.createdAt || (a.createdAt == b.createdAt && a.id ≤ b.id)

def issueAccess (tokenHash : String) (grant : Grant) (scopes : List String) (t : Int) (d : Inner) : Inner := { d with
  access := d.access.insert tokenHash {
    credentialFp := grant.credentialFp
    grantId := grant.id
    clientId := grant.clientId
    username := grant.username
    source := grant.source
    scopes
    resource := grant.resource
    expiresAt := t + accessTtlSecs } }

def evictUnapprovedClient (d : Inner) : Option Inner :=
  let victim := ((values d.clients).filter fun c => c.approvedAt.isNone && !d.inUse c).minOn? fun c => c.createdAt
  victim.map fun c => { d with clients := d.clients.erase c.clientId }

def load (persisted : Persisted) : Inner :=
  rebuildIndexes { empty with
    clients := persisted.clients.foldl (fun clients c => clients.insert c.clientId c) ∅
    grants := persisted.grants.foldl (fun grants g => grants.insert g.id g) ∅ }

end Inner

/-! ### Methods -/

/-- The store's two copies: what is live and what the file holds. -/
structure OAuthStore where
  inner : Inner
  file : Persisted

/-- What a call does not decide: the token drawn for each prefix, whether the state file
is written, and what the account files say of a user. -/
structure Chance where
  randomToken : String → String
  written : Except String Unit
  authority : String → AuthSource → Option UserAuthority

namespace OAuthStore
variable {ε ρ : Type}

/-- Apply `f` to a copy of the state, persist the copy, and only then make it live. -/
def commit (s : OAuthStore) (chance : Chance) (failed : String → ε) (f : Inner → Except ε (ρ × Inner)) : Except ε ρ × OAuthStore :=
  match f s.inner with
  | .error e => (.error e, s)
  | .ok (r, draft) =>
    match chance.written with
    | .error e => (.error (failed e), s)
    | .ok () => (.ok r, ⟨draft, draft.snapshot⟩)

def pruned (s : OAuthStore) (t : Int) : OAuthStore := { s with inner := s.inner.prune t }

def newClient (clientName : Option String) (redirectUris : List String) (source : String) (t : Int) (chance : Chance) : Client where
  clientId := chance.randomToken "wsc_"
  clientName := sanitizeClientName clientName
  redirectUris
  createdAt := t
  approvedAt := none
  registeredFrom := String.ofList (source.toList.take 64)

def registerClient (s : OAuthStore) (clientName : Option String) (redirectUris : List String) (source : String) (t : Int)
    (chance : Chance) : Except String Client × OAuthStore :=
  let client := newClient clientName redirectUris source t chance
  (s.pruned t).commit chance id fun d =>
    let room := if maxClients ≤ d.clients.size then d.evictUnapprovedClient else some d
    match room with
    | none => .error "too many registered clients — remove unused ones in Settings → AI Agents (MCP)"
    | some d => .ok (client, { d with clients := d.clients.insert client.clientId client })

def deleteClient (s : OAuthStore) (clientId : String) (chance : Chance) : Except String Bool × OAuthStore :=
  s.commit chance id fun d =>
    let existed := d.clients.contains clientId
    let ids := ((values d.grants).filter fun g => g.clientId = clientId).map fun g => g.id
    .ok (existed || !ids.isEmpty, { d with clients := d.clients.erase clientId }.removeGrants ids)

/-- `now` is read under the lock here, as in `peek_pending` and `take_pending`. -/
def beginPending (s : OAuthStore) (p : PendingAuth) (now : Int) (chance : Chance) : Except String String × OAuthStore :=
  if p.state.any fun text => maxStateLen < text.utf8ByteSize then (.error "state is too long", s) else
  let s := s.pruned now
  let waiting := values s.inner.pending
  if maxPending ≤ waiting.length then (.error "too many authorizations in progress — try again shortly", s)
  else if maxPendingPerClient ≤ waiting.countP (fun x => x.clientId = p.clientId) then
    (.error "too many authorizations in progress for this app — try again shortly", s)
  else if maxPendingPerSource ≤ waiting.countP (fun x => x.source = p.source) then
    (.error "too many authorizations in progress from your address — try again shortly", s)
  else
    let id := chance.randomToken "wsp_"
    (.ok id, { s with inner := { s.inner with pending := s.inner.pending.insert id p } })

def peekPending (s : OAuthStore) (id : String) (now : Int) : Option PendingAuth × OAuthStore :=
  ((s.pruned now).inner.pending[id]?, s.pruned now)

def takePending (s : OAuthStore) (id : String) (now : Int) : Option PendingAuth × OAuthStore :=
  let s := s.pruned now
  (s.inner.pending[id]?, { s with inner := { s.inner with pending := s.inner.pending.erase id } })

def approveClient (clientId : String) (t : Int) (d : Inner) : Inner :=
  match d.clients[clientId]? with
  | none => d
  | some c => { d with clients := d.clients.insert clientId { c with approvedAt := some (c.approvedAt.getD t) } }

def issueCode (prim : Primitives) (s : OAuthStore) (p : PendingAuth) (username : String) (source : AuthSource) (granted : List String)
    (t : Int) (chance : Chance) : Except String String × OAuthStore :=
  let s := s.pruned t
  if maxCodes ≤ s.inner.codes.size then (.error "too many authorizations in progress — try again shortly", s) else
  let code := chance.randomToken "wsa_"
  let ac : AuthCode := {
    clientId := p.clientId
    redirectUri := p.redirectUri
    codeChallenge := p.codeChallenge
    scopes := normalizeScopes granted
    resource := p.resource
    username
    source
    expiresAt := t + codeTtlSecs }
  s.commit chance id fun d =>
    let d := approveClient p.clientId t d
    .ok (code, { d with codes := d.codes.insert (prim.secretHash "code" code) ac })

/-- The first locked phase of `exchange_code`: consume and check the code. -/
def consumeCode (prim : Primitives) (s : OAuthStore) (code clientId redirectUri codeVerifier : String) (resource : Option String)
    (t : Int) (chance : Chance) : Except TokenError AuthCode × OAuthStore :=
  let s := s.pruned t
  let codeHash := prim.secretHash "code" code
  match s.inner.codes[codeHash]? with
  | none =>
    let invalid := .error (.invalidGrant "authorization code is invalid, expired or already used")
    match s.inner.usedCodes[codeHash]? with
    | none => (invalid, s)
    | some used => (invalid, (s.commit chance id fun d => .ok ((), d.removeGrant used.1)).2)
  | some ac =>
    let s := { s with inner := { s.inner with codes := s.inner.codes.erase codeHash } }
    if ac.clientId ≠ clientId then (.error (.invalidGrant "code was issued to a different client"), s)
    else if ac.redirectUri ≠ redirectUri then
      (.error (.invalidGrant "redirect_uri does not match the authorization request"), s)
    else if prim.pkceS256Matches codeVerifier ac.codeChallenge = false then (.error (.invalidGrant "PKCE verification failed"), s)
    else if resource.any fun r => r ≠ ac.resource then
      (.error (.invalidTarget "resource does not match the authorization request"), s)
    else (.ok ac, s)

def newGrant (prim : Primitives) (clientName clientId : String) (ac : AuthCode) (auth : UserAuthority) (scopes : List String)
    (t : Int) (chance : Chance) : Grant where
  id := chance.randomToken "wsg_"
  clientId
  clientName
  username := ac.username
  source := ac.source
  scopes := normalizeScopes scopes
  resource := ac.resource
  createdAt := t
  lastUsedAt := t
  refreshHash := prim.secretHash "refresh" (chance.randomToken "wsrt_")
  refreshExpiresAt := t + refreshTtlSecs
  retiredRefreshHashes := []
  lastRotatedAt := t
  credentialFp := auth.credentialFp

/-- The last locked phase of `exchange_code`: create the grant. -/
def createGrant (prim : Primitives) (s : OAuthStore) (code clientId : String) (ac : AuthCode) (auth : UserAuthority)
    (scopes : List String) (t : Int) (chance : Chance) : Except TokenError TokenSet × OAuthStore :=
  match s.inner.clients[clientId]? with
  | none => (.error (.invalidClient "client is no longer registered"), s)
  | some c =>
    if maxGrants ≤ s.inner.grants.size then
      (.error (.serverError "too many active MCP grants — revoke unused ones in Settings → AI Agents (MCP)"), s)
    else if maxAccessTokens ≤ s.inner.access.size then (.error (.serverError "too many active access tokens"), s)
    else
      let refresh := chance.randomToken "wsrt_"
      let access := chance.randomToken "wsat_"
      let grant := newGrant prim c.clientName clientId ac auth scopes t chance
      s.commit chance TokenError.serverError fun d =>
        let d := d.issueAccess (prim.secretHash "access" access) grant grant.scopes t
        .ok (⟨access, "Bearer", accessTtlSecs, refresh, scopesString grant.scopes⟩, { d with
          refreshIndex := d.refreshIndex.insert grant.refreshHash grant.id
          usedCodes := d.usedCodes.insert (prim.secretHash "code" code) (grant.id, t + usedCodeMemorySecs)
          grants := d.grants.insert grant.id grant })

/-- The grant to rotate when a retired token comes back at once, its answer having been lost. -/
def retryOf (d : Inner) (grantId h : String) (t : Int) : Option Grant :=
  d.grants[grantId]?.filter fun g => g.retiredRefreshHashes.getLast? = some h ∧ t - g.lastRotatedAt ≤ refreshRetryGraceSecs

def checkGrant (grant : Grant) (clientId : String) (resource : Option String) : Except TokenError Grant :=
  if grant.clientId ≠ clientId then .error (.invalidGrant "refresh token was issued to a different client")
  else if resource.any fun r => r ≠ grant.resource then .error (.invalidTarget "resource does not match the grant")
  else .ok grant

/-- The first locked phase of `refresh`: find the grant, handle replays. -/
def findGrant (prim : Primitives) (s : OAuthStore) (refreshToken clientId : String) (resource : Option String) (t : Int)
    (chance : Chance) : Except TokenError Grant × OAuthStore :=
  let h := prim.secretHash "refresh" refreshToken
  let s := s.pruned t
  match s.inner.retiredIndex[h]? with
  | some grantId =>
    match retryOf s.inner grantId h t with
    | some g => (checkGrant g clientId resource, s)
    | none =>
      let (removed, s) := s.commit chance TokenError.serverError fun d => .ok ((), d.removeGrant grantId)
      (removed.bind fun _ => .error (.invalidGrant "refresh token was already used; the grant has been revoked"), s)
  | none =>
    match s.inner.refreshIndex[h]?.bind fun id => s.inner.grants[id]? with
    | none => (.error (.invalidGrant "refresh token is invalid or expired"), s)
    | some g => (checkGrant g clientId resource, s)

def rotated (g : Grant) (newHash : String) (t : Int) : Grant :=
  let retired := g.retiredRefreshHashes ++ [g.refreshHash]
  { g with
    refreshHash := newHash
    retiredRefreshHashes := retired.drop (retired.length - retiredRefreshKeep)
    lastRotatedAt := t
    refreshExpiresAt := min (t + refreshTtlSecs) (g.createdAt + grantMaxLifetimeSecs)
    lastUsedAt := t }

/-- What a refresh asks for, within what was approved and what the user may hold now. -/
def refreshScopes (grant : Grant) (auth : UserAuthority) (requested : Option (List String)) : Except TokenError (List String) :=
  if requested.any fun req => req.any fun s => !grant.scopes.contains s then
    .error (.invalidScope "a refresh cannot add scopes the user did not approve")
  else
    let scopes := normalizeScopes ((requested.getD grant.scopes).filter fun s => auth.allowedScopes.contains s)
    if scopes = [] then .error (.invalidScope "the user may no longer hold any of the granted scopes") else .ok scopes

/-- The last locked phase of `refresh`: rotate, if nobody has meanwhile. -/
def rotate (prim : Primitives) (s : OAuthStore) (grant : Grant) (auth : Option UserAuthority) (requested : Option (List String))
    (t : Int) (chance : Chance) : Except TokenError TokenSet × OAuthStore :=
  if s.inner.refreshIndex[grant.refreshHash]? ≠ some grant.id then
    (.error (.invalidGrant "refresh token was already used"), s)
  else
    match auth with
    | none => (.error (.invalidGrant "the user cannot be confirmed (no longer exists, or may not use MCP)"), s)
    | some auth =>
      if auth.credentialFp ≠ grant.credentialFp then
        let (removed, s) := s.commit chance TokenError.serverError fun d => .ok ((), d.removeGrant grant.id)
        (removed.bind fun _ =>
          .error (.invalidGrant "the user's password or two-factor setup changed; the grant has been revoked"), s)
      else
        match refreshScopes grant auth requested with
        | .error e => (.error e, s)
        | .ok scopes =>
          if maxAccessTokens ≤ s.inner.access.size then (.error (.serverError "too many active access tokens"), s) else
          let newRefresh := chance.randomToken "wsrt_"
          let access := chance.randomToken "wsat_"
          s.commit chance TokenError.serverError fun d =>
            match d.grants[grant.id]? with
            | none => .error (.invalidGrant "refresh token is invalid or expired")
            | some g =>
              let g := rotated g (prim.secretHash "refresh" newRefresh) t
              let d := { d with grants := d.grants.insert grant.id g }.rebuildIndexes
              .ok (⟨access, "Bearer", accessTtlSecs, newRefresh, scopesString scopes⟩,
                d.issueAccess (prim.secretHash "access" access) g scopes t)

def validateAccess (prim : Primitives) (s : OAuthStore) (token resource : String) (t : Int) : Option AccessInfo × OAuthStore :=
  let h := prim.secretHash "access" token
  match s.inner.access[h]? with
  | none => (none, s)
  | some info =>
    if info.expiresAt ≤ t then (none, { s with inner := { s.inner with access := s.inner.access.erase h } })
    else if info.resource ≠ resource then (none, s)
    else
      match s.inner.grants[info.grantId]? with
      | none => (none, s)
      | some g =>
        (some info, { s with inner := { s.inner with grants := s.inner.grants.insert info.grantId { g with lastUsedAt := t } } })

def revokeToken (prim : Primitives) (s : OAuthStore) (token : String) (clientId : Option String) (chance : Chance) :
    Except String Unit × OAuthStore :=
  let found := (s.inner.access[prim.secretHash "access" token]?.map fun a => a.grantId).or
    s.inner.refreshIndex[prim.secretHash "refresh" token]?
  match found with
  | none => (.ok (), s)
  | some grantId =>
    if clientId.any fun cid => s.inner.grants[grantId]?.any fun g => g.clientId ≠ cid then (.ok (), s)
    else s.commit chance id fun d => .ok ((), d.removeGrant grantId)

def revokeGrant (s : OAuthStore) (grantId : String) (chance : Chance) : Except String Bool × OAuthStore :=
  if s.inner.grants.contains grantId = false then (.ok false, s)
  else s.commit chance id fun d => .ok (d.grants.contains grantId, d.removeGrant grantId)

def revokeAny (s : OAuthStore) (ids : List String) (chance : Chance) : Except String Nat × OAuthStore :=
  if ids = [] then (.ok 0, s) else s.commit chance id fun d => .ok (ids.length, d.removeGrants ids)

def revokeUser (s : OAuthStore) (username : String) (chance : Chance) : Except String Nat × OAuthStore :=
  s.revokeAny (((values s.inner.grants).filter fun g => g.username = username).map fun g => g.id) chance

def revokeAll (s : OAuthStore) (chance : Chance) : Except String Nat × OAuthStore := s.revokeAny s.inner.grants.keys chance

def load (file : Persisted) : OAuthStore := ⟨Inner.load file, file⟩

end OAuthStore
end Mcp
