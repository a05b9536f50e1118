import WolfStack.Mcp.Runs

/-! What is said of every entry of the store, whatever tables it is in, and that a section
leaves it true of all entries if it is true of the one that it adds. -/

namespace Mcp
open Effects
open Std (TreeMap)
attribute [local irreducible] Inner.prune

structure Terms where
  client : Client → Prop
  pending : PendingAuth → Prop
  code : String → AuthCode → Prop
  grant : Grant → Prop
  access : String → AccessInfo → Prop

structure Terms.Settled (terms : Terms) : Prop where
  approved : ∀ c t, terms.client c → terms.client { c with approvedAt := t }
  used : ∀ g t, terms.grant g → terms.grant { g with lastUsedAt := t }
  rotated : ∀ g h t, terms.grant g → terms.grant (OAuthStore.rotated g h t)

structure Terms.Implies (terms wider : Terms) : Prop where
  client : ∀ c, terms.client c → wider.client c
  pending : ∀ p, terms.pending p → wider.pending p
  code : ∀ h c, terms.code h c → wider.code h c
  grant : ∀ g, terms.grant g → wider.grant g
  access : ∀ h a, terms.access h a → wider.access h a

variable {terms : Terms} {prim : Primitives} {chance : Chance} {t : Int}

namespace Inner
variable {d other : Inner}

structure Meets (terms : Terms) (d : Inner) : Prop where
  clients : ∀ (k : String) c, d.clients[k]? = some c → terms.client c
  pending : ∀ (k : String) p, d.pending[k]? = some p → terms.pending p
  codes : ∀ (h : String) c, d.codes[h]? = some c → terms.code h c
  grants : ∀ (k : String) g, d.grants[k]? = some g → g.id = k ∧ terms.grant g
  access : ∀ (h : String) a, d.access[h]? = some a → terms.access h a

theorem Meets.wider (meets : d.Meets terms) {wider : Terms} (implies : terms.Implies wider) : d.Meets wider where
  clients k c found := implies.client c (meets.clients k c found)
  pending k p found := implies.pending p (meets.pending k p found)
  codes h c found := implies.code h c (meets.codes h c found)
  grants k g found := (meets.grants k g found).imp_right (implies.grant g)
  access h a found := implies.access h a (meets.access h a found)

section put
variable {k : String}

theorem Meets.putClient (meets : d.Meets terms) {c : Client} (held : terms.client c) :
    Meets terms { d with clients := d.clients.insert k c } := by
  refine { meets with clients := fun other c found => ?_ }
  rw [Inner.insert_get] at found
  split at found
  · cases found
    exact held
  · exact meets.clients other c found

theorem Meets.putPending (meets : d.Meets terms) {p : PendingAuth} (held : terms.pending p) :
    Meets terms { d with pending := d.pending.insert k p } := by
  refine { meets with pending := fun other p found => ?_ }
  rw [Inner.insert_get] at found
  split at found
  · cases found
    exact held
  · exact meets.pending other p found

theorem Meets.putCode (meets : d.Meets terms) {c : AuthCode} (held : terms.code k c) :
    Meets terms { d with codes := d.codes.insert k c } := by
  refine { meets with codes := fun other c found => ?_ }
  rw [Inner.insert_get] at found
  split at found
  · rename_i same
    cases found
    exact same ▸ held
  · exact meets.codes other c found

theorem Meets.putGrant (meets : d.Meets terms) {g : Grant} (held : terms.grant g) (named : g.id = k) :
    Meets terms { d with grants := d.grants.insert k g } := by
  refine { meets with grants := fun other g found => ?_ }
  rw [Inner.insert_get] at found
  split at found
  · rename_i same
    cases found
    exact ⟨named.trans same.symm, held⟩
  · exact meets.grants other g found

end put

structure Among (other d : Inner) : Prop where
  clients : ∀ (k : String) c, other.clients[k]? = some c → d.clients[k]? = some c
  pending : ∀ (k : String) p, other.pending[k]? = some p → d.pending[k]? = some p
  codes : ∀ (h : String) c, other.codes[h]? = some c → d.codes[h]? = some c
  grants : ∀ (k : String) g, other.grants[k]? = some g → d.grants[k]? = some g
  access : ∀ (h : String) a, other.access[h]? = some a → d.access[h]? = some a

theorem Among.refl (d : Inner) : d.Among d :=
  ⟨fun _ _ found => found, fun _ _ found => found, fun _ _ found => found, fun _ _ found => found, fun _ _ found => found⟩

theorem Among.trans {middle : Inner} (first : other.Among middle) (second : middle.Among d) : other.Among d where
  clients k c found := second.clients k c (first.clients k c found)
  pending k p found := second.pending k p (first.pending k p found)
  codes h c found := second.codes h c (first.codes h c found)
  grants k g found := second.grants k g (first.grants k g found)
  access h a found := second.access h a (first.access h a found)

theorem Meets.among (meets : d.Meets terms) (among : other.Among d) : other.Meets terms where
  clients k c found := meets.clients k c (among.clients k c found)
  pending k p found := meets.pending k p (among.pending k p found)
  codes h c found := meets.codes h c (among.codes h c found)
  grants k g found := meets.grants k g (among.grants k g found)
  access h a found := meets.access h a (among.access h a found)

theorem removeGrant_among (id : String) : (d.removeGrant id).Among d where
  clients k c found := by unfold removeGrant at found; split at found <;> exact found
  pending k p found := by unfold removeGrant at found; split at found <;> exact found
  codes := (removeGrant_keeps id).codes
  grants k g found := by
    rw [removeGrant_grants] at found
    split at found
    · cases found
    · exact found
  access := (removeGrant_keeps id).access

theorem removeGrants_among (ids : List String) : (d.removeGrants ids).Among d := by
  induction ids generalizing d with
  | nil => exact .refl d
  | cons id rest ih => exact ih.trans (removeGrant_among id)

theorem prune_among (t : Int) (d : Inner) : (d.prune t).Among d := by
  obtain ⟨clients, shape, fewer⟩ := prune_shape t d
  have live : (d.live t).Among d :=
    ⟨fun _ _ found => found, fun _ _ found => filter_get found, fun _ _ found => filter_get found, fun _ _ found => found,
      fun _ _ found => filter_get found⟩
  have kept := (removeGrants_among (d.expired t)).trans live
  rw [shape]
  exact ⟨fun k c found => kept.clients k c (fewer k c found), kept.pending, kept.codes, kept.grants, kept.access⟩

end Inner

namespace OAuthStore
variable {s : OAuthStore} {ε ρ : Type}

structure Meets (terms : Terms) (s : OAuthStore) : Prop where
  inner : s.inner.Meets terms
  fileClients : ∀ c ∈ s.file.clients, terms.client c
  fileGrants : ∀ g ∈ s.file.grants, terms.grant g

theorem Meets.wider (meets : s.Meets terms) {wider : Terms} (implies : terms.Implies wider) : s.Meets wider where
  inner := meets.inner.wider implies
  fileClients c member := implies.client c (meets.fileClients c member)
  fileGrants g member := implies.grant g (meets.fileGrants g member)

theorem Meets.memory (meets : s.Meets terms) {inner : Inner} (kept : inner.Meets terms) : Meets terms { s with inner } :=
  ⟨kept, meets.fileClients, meets.fileGrants⟩

theorem Meets.fewer (meets : s.Meets terms) {inner : Inner} (among : inner.Among s.inner) : Meets terms { s with inner } :=
  meets.memory (meets.inner.among among)

theorem Meets.pruned (meets : s.Meets terms) : (s.pruned t).Meets terms := meets.fewer (Inner.prune_among t s.inner)

theorem Meets.commit_ok (meets : s.Meets terms) {failed : String → ε} {f : Inner → Except ε (ρ × Inner)}
    (drafts : ∀ r draft, f s.inner = .ok (r, draft) → (s.commit chance failed f).1 = .ok r → draft.Meets terms) :
    (s.commit chance failed f).2.Meets terms := by
  rcases Consistent.commit_cases s chance failed f with ⟨e, done⟩ | ⟨r, draft, drafted, done⟩
  · rw [done]
    exact meets
  · have kept := drafts r draft drafted (congrArg Prod.fst done)
    rw [done]
    constructor
    · exact kept
    · intro c member
      obtain ⟨k, found⟩ := Inner.mem_snapshot_clients.mp member
      exact kept.clients k c found
    · intro g member
      obtain ⟨k, found⟩ := Inner.mem_snapshot.mp member
      exact (kept.grants k g found).2

theorem Meets.commit (meets : s.Meets terms) {failed : String → ε} {f : Inner → Except ε (ρ × Inner)}
    (drafts : ∀ r draft, f s.inner = .ok (r, draft) → draft.Meets terms) : (s.commit chance failed f).2.Meets terms :=
  meets.commit_ok fun r draft drafted _ => drafts r draft drafted

theorem Meets.removal (meets : s.Meets terms) {failed : String → ε} {r : ρ} (id : String) :
    (s.commit chance failed fun d => .ok (r, d.removeGrant id)).2.Meets terms := by
  apply meets.commit
  intro r draft drafted
  cases drafted
  exact meets.inner.among (Inner.removeGrant_among id)

theorem Meets.load {file : Persisted} (clients : ∀ c ∈ file.clients, terms.client c) (grants : ∀ g ∈ file.grants, terms.grant g) :
    (OAuthStore.load file).Meets terms where
  inner := {
    clients := fun _ c found => clients c (load_clients found).1
    pending := fun _ p found => absurd (found.symm.trans TreeMap.getElem?_emptyc) (Option.some_ne_none p)
    codes := fun _ c found => absurd (found.symm.trans TreeMap.getElem?_emptyc) (Option.some_ne_none c)
    grants := fun _ g found => ⟨(load_grants found).2, grants g (load_grants found).1⟩
    access := fun _ a found => absurd (found.symm.trans TreeMap.getElem?_emptyc) (Option.some_ne_none a) }
  fileClients := clients
  fileGrants := grants

theorem Meets.registerClient (meets : s.Meets terms) (clientName : Option String) (redirectUris : List String) (source : String)
    (added : (s.registerClient clientName redirectUris source t chance).1.isOk = true →
      terms.client (newClient clientName redirectUris source t chance)) :
    (s.registerClient clientName redirectUris source t chance).2.Meets terms := by
  apply meets.pruned.commit_ok
  intro r draft drafted written
  have registered := added (by rw [OAuthStore.registerClient, written]; rfl)
  dsimp only at drafted
  split at drafted
  · cases drafted
  · rename_i room found
    cases drafted
    have kept : room.Meets terms := by
      split at found
      · obtain ⟨victim, -, rfl⟩ := Option.map_eq_some_iff.mp found
        exact meets.pruned.inner.among { Inner.Among.refl _ with clients := fun _ _ there => erase_get there }
      · cases found
        exact meets.pruned.inner
    exact kept.putClient registered

theorem Meets.beginPending (meets : s.Meets terms) {p : PendingAuth} (added : terms.pending p) : (s.beginPending p t chance).2.Meets terms := by
  unfold OAuthStore.beginPending
  split
  · exact meets
  · dsimp only
    split
    · exact meets.pruned
    · split
      · exact meets.pruned
      · split
        · exact meets.pruned
        · exact meets.pruned.memory (meets.pruned.inner.putPending added)

def codeOf (p : PendingAuth) (username : String) (source : AuthSource) (granted : List String) (t : Int) : AuthCode where
  clientId := p.clientId
  redirectUri := p.redirectUri
  codeChallenge := p.codeChallenge
  scopes := normalizeScopes granted
  resource := p.resource
  username
  source
  expiresAt := t + codeTtlSecs

theorem Meets.issueCode (meets : s.Meets terms) (settled : terms.Settled) {p : PendingAuth} {username : String} {source : AuthSource}
    {granted : List String} (added : (OAuthStore.issueCode prim s p username source granted t chance).1.isOk = true →
      terms.code (prim.secretHash "code" (chance.randomToken "wsa_")) (codeOf p username source granted t)) :
    (OAuthStore.issueCode prim s p username source granted t chance).2.Meets terms := by
  unfold OAuthStore.issueCode at added ⊢
  dsimp only at added ⊢
  split
  · exact meets.pruned
  · rename_i room
    rw [if_neg room] at added
    apply meets.pruned.commit_ok
    intro r draft drafted written
    have issued := added (by rw [written]; rfl)
    cases drafted
    have approved : (approveClient p.clientId t (s.pruned t).inner).Meets terms := by
      unfold approveClient
      split
      · exact meets.pruned.inner
      · rename_i c there
        exact meets.pruned.inner.putClient (settled.approved c _ (meets.pruned.inner.clients _ c there))
    exact approved.putCode issued

def accessOf (grant : Grant) (scopes : List String) (t : Int) : AccessInfo where
  credentialFp := grant.credentialFp
  grantId := grant.id
  clientId := grant.clientId
  username := grant.username
  source := grant.source
  scopes
  resource := grant.resource
  expiresAt := t + accessTtlSecs

theorem issueAccess_meets {d : Inner} (meets : d.Meets terms) {h : String} {grant : Grant} {scopes : List String}
    (added : terms.access h (accessOf grant scopes t)) : (d.issueAccess h grant scopes t).Meets terms := by
  refine { meets with access := fun k a found => ?_ }
  unfold Inner.issueAccess at found
  rw [Inner.insert_get] at found
  split at found
  · rename_i same
    cases found
    exact same ▸ added
  · exact meets.access k a found

theorem Meets.createGrant (meets : s.Meets terms) {code clientId : String} {ac : AuthCode} {auth : UserAuthority} {scopes : List String}
    (added : ∀ clientName, (OAuthStore.createGrant prim s code clientId ac auth scopes t chance).1.isOk = true →
      terms.grant (newGrant prim clientName clientId ac auth scopes t chance) ∧
        terms.access (prim.secretHash "access" (chance.randomToken "wsat_"))
          (accessOf (newGrant prim clientName clientId ac auth scopes t chance) (normalizeScopes scopes) t)) :
    (OAuthStore.createGrant prim s code clientId ac auth scopes t chance).2.Meets terms := by
  unfold OAuthStore.createGrant at added ⊢
  dsimp only at added ⊢
  split
  · exact meets
  · rename_i c there
    simp only [there] at added
    split
    · exact meets
    · rename_i few
      rw [if_neg few] at added
      split
      · exact meets
      · rename_i room
        rw [if_neg room] at added
        apply meets.commit_ok
        intro r draft drafted written
        obtain ⟨grant, access⟩ := added c.clientName (by rw [written]; rfl)
        cases drafted
        have issued := issueAccess_meets meets.inner access
        exact { issued with grants := (issued.putGrant grant rfl).grants }

theorem Meets.rotate (meets : s.Meets terms) (settled : terms.Settled) {grant : Grant} {auth : Option UserAuthority}
    {requested : Option (List String)}
    (added : ∀ authority scopes g, auth = some authority → authority.credentialFp = grant.credentialFp →
      refreshScopes grant authority requested = .ok scopes → s.inner.grants[grant.id]? = some g →
      (OAuthStore.rotate prim s grant auth requested t chance).1.isOk = true →
      terms.access (prim.secretHash "access" (chance.randomToken "wsat_"))
        (accessOf (rotated g (prim.secretHash "refresh" (chance.randomToken "wsrt_")) t) scopes t)) :
    (OAuthStore.rotate prim s grant auth requested t chance).2.Meets terms := by
  unfold OAuthStore.rotate at added ⊢
  dsimp only at added ⊢
  split
  · exact meets
  · rename_i current
    rw [if_neg current] at added
    split
    · exact meets
    · rename_i authority
      specialize added authority
      dsimp only at added
      split
      · exact meets.removal grant.id
      · rename_i same
        rw [if_neg same] at added
        split
        · exact meets
        · rename_i scopes allowed
          specialize added scopes
          rw [allowed] at added
          dsimp only at added
          split
          · exact meets
          · rename_i room
            rw [if_neg room] at added
            apply meets.commit_ok
            intro r draft drafted written
            split at drafted
            · cases drafted
            · rename_i g there
              have issued := added g rfl (not_not.mp same) rfl there (by rw [written]; rfl)
              cases drafted
              apply issueAccess_meets ?_ issued
              obtain ⟨named, held⟩ := meets.inner.grants _ g there
              have turned : terms.grant (rotated g (prim.secretHash "refresh" (chance.randomToken "wsrt_")) t) := settled.rotated g _ t held
              exact { meets.inner with grants := (meets.inner.putGrant turned named).grants }

theorem Meets.deleteClient (meets : s.Meets terms) (clientId : String) : (s.deleteClient clientId chance).2.Meets terms := by
  apply meets.commit
  intro r draft drafted
  cases drafted
  have erased : Inner.Among { s.inner with clients := s.inner.clients.erase clientId } s.inner :=
    { Inner.Among.refl _ with clients := fun _ _ there => erase_get there }
  exact meets.inner.among ((Inner.removeGrants_among _).trans erased)

theorem Meets.takePending (meets : s.Meets terms) (id : String) : (s.takePending id t).2.Meets terms :=
  meets.pruned.fewer { Inner.Among.refl _ with pending := fun _ _ there => erase_get there }

theorem Meets.consumeCode (meets : s.Meets terms) (code clientId redirectUri codeVerifier : String) (resource : Option String) :
    (OAuthStore.consumeCode prim s code clientId redirectUri codeVerifier resource t chance).2.Meets terms := by
  unfold OAuthStore.consumeCode
  dsimp only
  split
  · split
    · exact meets.pruned
    · exact meets.pruned.removal _
  · have erased : Inner.Among { (s.pruned t).inner with codes := (s.pruned t).inner.codes.erase (prim.secretHash "code" code) } (s.pruned t).inner :=
      { Inner.Among.refl _ with codes := fun _ _ there => erase_get there }
    have taken := meets.pruned.fewer erased
    split
    · exact taken
    · split
      · exact taken
      · split
        · exact taken
        · split <;> exact taken

theorem Meets.findGrant (meets : s.Meets terms) (refreshToken clientId : String) (resource : Option String) :
    (OAuthStore.findGrant prim s refreshToken clientId resource t chance).2.Meets terms := by
  unfold OAuthStore.findGrant
  dsimp only
  split
  · split
    · exact meets.pruned
    · exact meets.pruned.removal _
  · split <;> exact meets.pruned

theorem Meets.validateAccess (meets : s.Meets terms) (settled : terms.Settled) (token resource : String) :
    (OAuthStore.validateAccess prim s token resource t).2.Meets terms := by
  unfold OAuthStore.validateAccess
  dsimp only
  split
  · exact meets
  · split
    · exact meets.fewer { Inner.Among.refl _ with access := fun _ _ there => erase_get there }
    · split
      · exact meets
      · split
        · exact meets
        · rename_i info _ _ _ g there
          obtain ⟨named, held⟩ := meets.inner.grants _ g there
          exact meets.memory (meets.inner.putGrant (settled.used g t held) named)

theorem Meets.revokeToken (meets : s.Meets terms) (token : String) (clientId : Option String) :
    (OAuthStore.revokeToken prim s token clientId chance).2.Meets terms := by
  unfold OAuthStore.revokeToken
  dsimp only
  split
  · exact meets
  · split
    · exact meets
    · exact meets.removal _

theorem Meets.revokeGrant (meets : s.Meets terms) (id : String) : (s.revokeGrant id chance).2.Meets terms := by
  unfold OAuthStore.revokeGrant
  split
  · exact meets
  · apply meets.commit
    intro r draft drafted
    cases drafted
    exact meets.inner.among (Inner.removeGrant_among id)

theorem Meets.revokeAny (meets : s.Meets terms) (ids : List String) : (s.revokeAny ids chance).2.Meets terms := by
  unfold OAuthStore.revokeAny
  split
  · exact meets
  · apply meets.commit
    intro r draft drafted
    cases drafted
    exact meets.inner.among (Inner.removeGrants_among ids)

end OAuthStore

def Section.Adding : {β : Type} → Section β → Prop
  | _, .registerClient .. | _, .beginPending _ | _, .issueCode .. | _, .createGrant .. | _, .rotate .. => True
  | _, _ => False

theorem Section.meets {store : OAuthStore} (meets : store.Meets terms) (settled : terms.Settled) {clock : Int} {β : Type}
    {operation : Section β} (fewer : ¬operation.Adding) : (operation.run prim store clock chance).2.Meets terms := by
  cases operation with
  | registerClient | beginPending | issueCode | createGrant | rotate => exact absurd trivial fewer
  | now => exact meets
  | authority => exact meets
  | list => exact meets.pruned
  | deleteClient clientId => exact meets.deleteClient clientId
  | peekPending id => exact meets.pruned
  | takePending id approver => exact meets.takePending id
  | consumeCode code clientId redirectUri codeVerifier resource t => exact meets.consumeCode code clientId redirectUri codeVerifier resource
  | findGrant refreshToken clientId resource t => exact meets.findGrant refreshToken clientId resource
  | validateAccess token resource t => exact meets.validateAccess settled token resource
  | revokeToken token clientId => exact meets.revokeToken token clientId
  | revokeGrant grantId => exact meets.revokeGrant grantId
  | revokeUser username => exact meets.revokeAny _
  | revokeAll => exact meets.revokeAny _

end Mcp
