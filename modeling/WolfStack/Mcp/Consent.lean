import WolfStack.Mcp.Entries
import WolfStack.Auth.Users

/-! From the consent page to a request that is let in, after `mcp/http.rs` and `mcp/mod.rs`:
what the account files say of a user, and what is asked of the store. -/

namespace Mcp
open Effects
open Effects.Program (send)
open Std (TreeMap)

structure Credentials where
  fingerprint : List String → String
  verifyPassword : String → String → Bool
  verifyTotp : String → String → Bool

structure ApiKey where
  name : String
  id : String
  scopes : List String

/-- What a node has beside the store. Of the files of the system there are the lines, where they
can be read. -/
structure Machine where
  authMode : String
  users : List Auth.WolfUser
  shadow : Option (List String)
  passwd : Option (List String)
  group : Option (List String)
  selfCluster : Option String
  loginDisabled : Bool
  isLockedOut : String → Bool
  /-- What the configuration, the licence and the list of keys make of a key. -/
  validateKey : String → Except String ApiKey

def fields (c : Char) (line : String) : List String := (line.toList.splitOn c).map String.ofList

def canAccessCluster (user : Auth.WolfUser) (clusterName : Option String) : Bool :=
  user.role == "admin" || user.allowedClusters.isEmpty ||
    match clusterName with
    | some c => user.allowedClusters.contains c
    | none => true

def roleIsReadOnly (role : String) : Bool := role != "admin"

/-- What a read-only account may grant. -/
def readOnlyScopes : List String := ["read", "logs"]

def unsafeName (username : String) : Bool :=
  username == "" || username.toList.any fun c => c == ':' || c == '/' || c == '\x00'

def shadowHash (username line : String) : Option String :=
  match fields ':' line with
  | name :: hash :: _ => if name = username then some hash else none
  | _ => none

namespace Machine

def linuxShadowHash (m : Machine) (username : String) : Option String :=
  if unsafeName username then none
  else m.shadow.bind fun lines => lines.findSome? fun line =>
    (shadowHash username line).filter fun hash => hash ≠ "" ∧ hash.front ≠ '!' ∧ hash.front ≠ '*'

def linuxUserIsPrivileged (m : Machine) (username : String) : Bool :=
  let primaryGid := m.passwd.bind fun lines => lines.findSome? fun line =>
    match fields ':' line with
    | name :: _ :: _ :: gid :: _ => if name = username then some gid else none
    | _ => none
  username == "root" || (m.group.getD []).any fun line =>
    match fields ':' line with
    | gname :: _ :: gid :: members :: _ => (gname == "sudo" || gname == "wheel") &&
      (primaryGid == some gid || (fields ',' members).any fun member => member != "" && member == username)
    | _ => false

def authenticateUser (credentials : Credentials) (m : Machine) (username password : String) : Bool :=
  if unsafeName username || password == "" then false
  else match m.shadow.bind fun lines => lines.findSome? (shadowHash username) with
  | none => false
  | some hash => hash != "" && hash.front != '!' && hash != "*" && credentials.verifyPassword password hash

/-- Authority comes only from the store that authenticated the user. -/
def userAuthority (credentials : Credentials) (m : Machine) (username : String) (source : AuthSource) : Option UserAuthority :=
  match source with
  | .wolfStack =>
    if m.authMode ≠ "wolfstack" ∧ m.authMode ≠ "both" then none
    else (Auth.find m.users username).bind fun user =>
      if canAccessCluster user m.selfCluster = false then none
      else some {
        allowedScopes := if roleIsReadOnly user.role then readOnlyScopes else allScopes
        credentialFp := credentials.fingerprint
          ["wolfstack", user.passwordHash, user.totpSecret, if user.totpEnabled then "2fa-on" else "2fa-off"] }
  | .linux =>
    if m.authMode ≠ "linux" ∧ m.authMode ≠ "both" then none
    else (m.linuxShadowHash username).map fun hash => {
      allowedScopes := if m.linuxUserIsPrivileged username then allScopes else readOnlyScopes
      credentialFp := credentials.fingerprint ["linux", hash] }

/-- `verify_credentials`: the account store that accepts a user. -/
def verifyCredentials (credentials : Credentials) (m : Machine) (ip username password totpCode : String) : Except String AuthSource :=
  if m.isLockedOut ip then .error "Access denied — this IP is blocked. Contact the operator."
  else if username = "" ∨ password = "" then .error "Enter your username and password."
  else
    let linux : Except String AuthSource :=
      if (m.authMode = "linux" ∨ m.authMode = "both") ∧ m.authenticateUser credentials username password then .ok .linux
      else .error "Invalid username, password or code."
    let known := (Auth.find m.users username).filter fun user => credentials.verifyPassword password user.passwordHash
    match if m.authMode = "wolfstack" ∨ m.authMode = "both" then known else none with
    | none => linux
    | some user =>
      if user.totpEnabled then
        if Auth.trim totpCode = "" then
          .error "This account uses two-factor authentication — enter the code from your authenticator app."
        else if credentials.verifyTotp user.totpSecret (Auth.trim totpCode) then .ok .wolfStack
        else .error "Invalid username, password or code."
      else .ok .wolfStack

end Machine

inductive Principal where
  | user (username clientId clientName : String) (scopes : List String)
  | apiKey (name id : String) (scopes : List String)

/-- `issueCode` comes with what the consent page found out about the user, and `letIn` stands
where a request of a user's is let in. -/
inductive Page : Type → Type where
  | getClient (clientId : String) : Page (Option Client)
  | loginDisabled : Page Bool
  | verifyCredentials (ip username password totpCode : String) : Page (Except String AuthSource)
  | validateKey (token : String) : Page (Except String ApiKey)
  | issueCode (p : PendingAuth) (username : String) (source : AuthSource) (authority : UserAuthority) (granted : List String)
      (t : Int) : Page (Except String String)
  | letIn (token resource : String) (source : AuthSource) (authority : UserAuthority) (username clientId : String)
      (scopes : List String) (t : Int) : Page Unit

abbrev Errand := Joint Section Page

def ask {β : Type} (operation : Section β) : Program Errand β := send (.first operation)

def page {β : Type} (operation : Page β) : Program Errand β := send (.second operation)

/-- What the browser is shown. -/
inductive Reply where
  | errorPage (title text : String)
  | consentPage (pendingId : String) (error : Option String)
  | redirectError (code description : String)
  | redirectCode (code : String)

def validCodeChallenge (c : String) : Bool := c.utf8ByteSize == 43 && c.toList.all fun c => c.isAlphanum || c == '-' || c == '_'

def parseScopes (raw : Option String) : Except String (List String) :=
  let words := (fields ' ' (raw.getD "")).filter (· ≠ "")
  match words.find? fun s => !allScopes.contains s with
  | some s => .error ("unknown scope '" ++ s ++ "'")
  | none => .ok (normalizeScopes (if words = [] then ["read"] else words))

structure AuthorizeQuery where
  clientId : Option String
  redirectUri : Option String
  responseType : Option String
  codeChallengeMethod : Option String
  codeChallenge : Option String
  resource : Option String
  scope : Option String
  state : Option String

/-- What is checked of a query once its client and its address are known. -/
def AuthorizeQuery.check (q : AuthorizeQuery) (resource : String) : Except Reply (String × List String) :=
  if q.responseType ≠ some "code" then
    .error (.redirectError "unsupported_response_type" "only response_type=code is supported")
  else if q.codeChallengeMethod ≠ some "S256" then
    .error (.redirectError "invalid_request" "PKCE with code_challenge_method=S256 is required")
  else match q.codeChallenge.filter fun c => validCodeChallenge c with
  | none => .error (.redirectError "invalid_request" "code_challenge is missing or malformed")
  | some codeChallenge =>
    if q.resource ≠ some resource then
      .error (.redirectError "invalid_target" "resource must be this server's MCP endpoint")
    else match parseScopes q.scope with
    | .error e => .error (.redirectError "invalid_scope" e)
    | .ok scopes => .ok (codeChallenge, scopes)

/-- `from_` is the key of whoever opens the page. -/
def authorizeGet (q : AuthorizeQuery) (resource from_ : String) : Program Errand Reply := do
  match ← q.clientId.elim (pure none) fun id => page (.getClient id) with
  | none => pure (.errorPage "Unknown app" "This app is not registered with this WolfStack node (or its registration expired).")
  | some client =>
    match q.redirectUri.filter fun r => client.redirectUris.contains r with
    | none => pure (.errorPage "Invalid redirect" "The app asked to return to an address it did not register.")
    | some redirectUri =>
      match q.check resource with
      | .error reply => pure reply
      | .ok (codeChallenge, scopes) =>
        if ← page .loginDisabled then pure (.redirectError "access_denied" "sign-in is disabled on this node")
        else
          let createdAt ← ask .now
          let pending : PendingAuth := {
            clientId := client.clientId
            clientName := client.clientName
            redirectUri
            state := q.state
            codeChallenge
            scopes
            resource
            createdAt
            source := from_ }
          match ← ask (.beginPending pending) with
          | .error e => pure (.redirectError "temporarily_unavailable" e)
          | .ok id => pure (.consentPage id none)

structure ConsentForm where
  pendingId : String
  decision : String
  username : String
  password : String
  totpCode : String
  ticked : List String

def ConsentForm.granted (form : ConsentForm) (pending : PendingAuth) (authority : UserAuthority) : List String :=
  pending.scopes.filter fun s => form.ticked.contains s && authority.allowedScopes.contains s

def authorizePost (form : ConsentForm) (ip : String) : Program Errand Reply := do
  match ← ask (.peekPending form.pendingId) with
  | none => pure (.errorPage "Request expired" "This authorization request has expired or was already used.")
  | some pending =>
    if form.decision ≠ "approve" then
      let _ ← ask (.takePending form.pendingId none)
      pure (.redirectError "access_denied" "the user denied the request")
    else if ← page .loginDisabled then
      let _ ← ask (.takePending form.pendingId none)
      pure (.errorPage "Sign-in disabled" "Direct sign-in is disabled on this server.")
    else
      match ← page (.verifyCredentials ip form.username form.password form.totpCode) with
      | .error e => pure (.consentPage form.pendingId (some e))
      | .ok source =>
        match ← ask (.authority form.username source pending.scopes) with
        | none =>
          let _ ← ask (.takePending form.pendingId none)
          pure (.errorPage "Not permitted" "This account may not authorize apps on this WolfStack node.")
        | some authority =>
          if form.granted pending authority = [] then pure (.consentPage form.pendingId
            (some "Select at least one permission your account is allowed to grant (viewer accounts can only grant read access)."))
          else
            match ← ask (.takePending form.pendingId (some form.username)) with
            | none => pure (.errorPage "Request expired" "This authorization request has expired or was already used.")
            | some taken =>
              let t ← ask .now
              match ← page (.issueCode taken form.username source authority (form.granted pending authority) t) with
              | .error e => pure (.errorPage "Authorization failed" e)
              | .ok code => pure (.redirectCode code)

structure TokenForm where
  grantType : Option String
  code : Option String
  redirectUri : Option String
  clientId : Option String
  codeVerifier : Option String
  refreshToken : Option String
  resource : Option String
  scope : Option String

inductive TokenReply where
  | answer (result : Except TokenError TokenSet)
  | invalidRequest (text : String)
  | unsupportedGrantType (text : String)

def token (f : TokenForm) (resource : String) : Program Errand TokenReply := do
  match ← f.clientId.elim (pure none) fun id => (page (.getClient id)).bind fun found => pure (found.map fun _ => id) with
  | none => pure (.answer (.error (.invalidClient "unknown client_id")))
  | some clientId =>
    if f.resource.any fun r => r ≠ resource then
      pure (.answer (.error (.invalidTarget "resource must be this server's MCP endpoint")))
    else if f.grantType = some "authorization_code" then
      match f.code, f.redirectUri, f.codeVerifier with
      | some code, some redirectUri, some verifier =>
        (exchangeCode code clientId redirectUri verifier f.resource).first.bind fun result => pure (.answer result)
      | _, _, _ => pure (.invalidRequest "code, redirect_uri and code_verifier are required")
    else if f.grantType = some "refresh_token" then
      match f.refreshToken with
      | none => pure (.invalidRequest "refresh_token is required")
      | some refreshToken =>
        match f.scope.mapM fun s => parseScopes (some s) with
        | .error e => pure (.answer (.error (.invalidScope e)))
        | .ok requested =>
          (refresh refreshToken clientId f.resource requested).first.bind fun result => pure (.answer result)
    else pure (.unsupportedGrantType "use authorization_code or refresh_token")

/-- The scopes of a key are the tools that it lists; only keys made for agents count. -/
def keyPrincipal (key : ApiKey) : Except String Principal :=
  if key.scopes.contains "mcp" then .ok (.apiKey key.name key.id (allScopes.filter fun s => key.scopes.contains s))
  else .error "this API key does not have the 'mcp' scope"

def authenticate (token resource : String) : Program Errand (Except String Principal) := do
  if token = "" then pure (.error "")
  else if "wsk_".toList.isPrefixOf token.toList then
    return (← page (.validateKey token)).bind keyPrincipal
  else
    let t ← ask .now
    match ← ask (.validateAccess token resource t) with
    | none => pure (.error "the access token is invalid, expired or for another server")
    | some info =>
      match ← ask (.authority info.username info.source info.scopes) with
      | none => pure (.error "this account may no longer use MCP on this node")
      | some authority =>
        if authority.credentialFp ≠ info.credentialFp then
          let _ ← ask (.revokeGrant info.grantId)
          pure (.error "the account's password or two-factor setup changed — authorize again")
        else
          let scopes := info.scopes.filter fun s => authority.allowedScopes.contains s
          let client ← page (.getClient info.clientId)
          let _ ← page (.letIn token resource info.source authority info.username info.clientId scopes t)
          pure (.ok (.user info.username info.clientId ((client.map Client.clientName).getD "") scopes))

inductive Handler (prim : Primitives) : Program Errand Unit → Prop
  | single {β : Type} {operation : Section β} (single : operation.Single) (other : ¬operation.Adding) :
      Handler prim (.request (.first operation) fun _ => .pure ())
  | register (clientName : Option String) (redirectUris : List String) (source : String) :
      Handler prim (((registerClient prim clientName redirectUris source).bind fun _ => .pure ()).first)
  | authorizeGet (q : AuthorizeQuery) (resource from_ : String) :
      Handler prim ((authorizeGet q resource from_).bind fun _ => .pure ())
  | authorizePost (form : ConsentForm) (ip : String) : Handler prim ((authorizePost form ip).bind fun _ => .pure ())
  | token (f : TokenForm) (resource : String) : Handler prim ((token f resource).bind fun _ => .pure ())
  | authenticate (token resource : String) : Handler prim ((authenticate token resource).bind fun _ => .pure ())

structure Reading where
  call : CallId
  username : String
  source : AuthSource
  authority : UserAuthority
  at_ : Int

structure SignIn where
  call : CallId
  username : String
  source : AuthSource
  at_ : Int

structure Consent where
  hash : String
  call : CallId
  pending : PendingAuth
  username : String
  source : AuthSource
  authority : UserAuthority
  granted : List String
  at_ : Int

structure Redemption where
  hash : String
  redirectUri : String
  codeVerifier : String

structure Making where
  hash : String
  grant : Grant

structure Issue where
  hash : String
  call : CallId
  authority : UserAuthority
  begun : Int
  at_ : Int

structure Admission where
  token : String
  resource : String
  call : CallId
  username : String
  clientId : String
  source : AuthSource
  scopes : List String
  authority : UserAuthority
  begun : Int
  at_ : Int

structure Ledger where
  registered : List (String × List String)
  signIns : List SignIn
  readings : List Reading
  consents : List Consent
  redemptions : List Redemption
  makings : List Making
  issues : List Issue
  admissions : List Admission

def Ledger.blank : Ledger := ⟨[], [], [], [], [], [], [], []⟩

/-- Nothing reads the ledger. -/
structure Endpoint where
  store : OAuthStore
  machine : Machine
  clock : Int
  boot : Nat
  named : List String
  ledger : Ledger

namespace Endpoint

def record (prim : Primitives) (call : CallId) (chance : Chance) (clock : Int) (store : OAuthStore) (l : Ledger) :
    {β : Type} → Section β → β → Ledger
  | _, .registerClient .., value =>
    match value with
    | .error _ => l
    | .ok c => { l with registered := (c.clientId, c.redirectUris) :: l.registered }
  | _, .authority username source _, value =>
    match value with
    | none => l
    | some authority => { l with readings := ⟨call, username, source, authority, clock⟩ :: l.readings }
  | _, .consumeCode code _ redirectUri codeVerifier _ _, value =>
    if value.isOk then { l with redemptions := ⟨prim.secretHash "code" code, redirectUri, codeVerifier⟩ :: l.redemptions } else l
  | _, .createGrant code _ _ authority _ t, value =>
    match value, store.inner.grants[chance.randomToken "wsg_"]? with
    | .ok _, some g => { l with
      makings := ⟨prim.secretHash "code" code, g⟩ :: l.makings
      issues := ⟨prim.secretHash "access" (chance.randomToken "wsat_"), call, authority, t, clock⟩ :: l.issues }
    | _, _ => l
  | _, .rotate _ auth _ t, value =>
    match value, auth with
    | .ok _, some authority => { l with
      issues := ⟨prim.secretHash "access" (chance.randomToken "wsat_"), call, authority, t, clock⟩ :: l.issues }
    | _, _ => l
  | _, _, _ => l

def knowing (credentials : Credentials) (e : Endpoint) (chance : Chance) : Chance :=
  { chance with authority := e.machine.userAuthority credentials }

def perform (prim : Primitives) (credentials : Credentials) (call : CallId) (e : Endpoint) (chance : Chance) {β : Type}
    (operation : Section β) : β × Endpoint :=
  let chance := e.knowing credentials chance
  let (value, store) := operation.run prim e.store e.clock chance
  (value, { e with
    store
    named := chance.names prim ++ e.named
    ledger := record prim call chance e.clock store e.ledger operation value })

def serve (prim : Primitives) (credentials : Credentials) (call : CallId) (e : Endpoint) (chance : Chance) :
    {β : Type} → Page β → β × Endpoint
  | _, .getClient clientId => (e.store.inner.clients[clientId]?, e)
  | _, .loginDisabled => (e.machine.loginDisabled, e)
  | _, .verifyCredentials ip username password totpCode =>
    match e.machine.verifyCredentials credentials ip username password totpCode with
    | .error message => (.error message, e)
    | .ok source => (.ok source, { e with ledger := { e.ledger with
      signIns := ⟨call, username, source, e.clock⟩ :: e.ledger.signIns } })
  | _, .validateKey token => (e.machine.validateKey token, e)
  | _, .issueCode p username source authority granted t =>
    let (value, store) := OAuthStore.issueCode prim e.store p username source granted t chance
    (value, { e with
      store
      named := chance.names prim ++ e.named
      ledger := if value.isOk then { e.ledger with
        consents := ⟨prim.secretHash "code" (chance.randomToken "wsa_"), call, p, username, source, authority, granted, e.clock⟩ ::
          e.ledger.consents } else e.ledger })
  | _, .letIn token resource source authority username clientId scopes t =>
    ((), { e with ledger := { e.ledger with
      admissions := ⟨token, resource, call, username, clientId, source, scopes, authority, t, e.clock⟩ :: e.ledger.admissions } })

def answer (prim : Primitives) (credentials : Credentials) (call : CallId) (e : Endpoint) (chance : Chance) {β : Type} :
    Errand β → β × Endpoint
  | .first operation => e.perform prim credentials call chance operation
  | .second operation => e.serve prim credentials call chance operation

def Fresh (prim : Primitives) (e : Endpoint) (chance : Chance) : Prop := ∀ name ∈ chance.names prim, name ∉ e.named

def restart (e : Endpoint) : Endpoint := { e with
  store := OAuthStore.load e.store.file
  boot := e.boot + 1 }

structure New (e : Endpoint) : Prop where
  store : e.store = OAuthStore.load ⟨[], []⟩
  ledger : e.ledger = .blank

end Endpoint

abbrev EndpointPolicy := Endpoint → {β : Type} → Errand β → Prop

def endpointSystem (prim : Primitives) (credentials : Credentials) (permitted : EndpointPolicy) : System Endpoint Errand CallId Unit where
  moves before after := (∃ clock, before.clock ≤ clock ∧ after = { before with clock }) ∨
    (∃ machine, after = { before with machine }) ∨ after = before.restart
  bodies _ := { program | Handler prim program }
  commits call _ before operation value after := before.boot = call.1 ∧ ∃ chance, before.Fresh prim chance ∧
    permitted before operation ∧ (value, after) = before.answer prim credentials call chance operation
  stops _ _ := True

end Mcp
