import WolfStack.Mcp.Consent

/-! Does every request that is let in go back to an approval? What each record rests on is
said of the ledger, which only grows; so nothing that happens in between makes it false. -/

namespace Mcp
open Effects
open Effects.Program (send)
open Std (TreeMap)
attribute [local irreducible] Inner.prune

variable {prim : Primitives} {credentials : Credentials} {call : CallId} {chance : Chance}

structure Ledger.Extends (before after : Ledger) : Prop where
  registered : before.registered ⊆ after.registered
  signIns : before.signIns ⊆ after.signIns
  readings : before.readings ⊆ after.readings
  consents : before.consents ⊆ after.consents
  redemptions : before.redemptions ⊆ after.redemptions
  makings : before.makings ⊆ after.makings
  issues : before.issues ⊆ after.issues
  admissions : before.admissions ⊆ after.admissions

structure Grant.Like (g other : Grant) : Prop where
  id : other.id = g.id
  clientId : other.clientId = g.clientId
  username : other.username = g.username
  source : other.source = g.source
  scopes : other.scopes = g.scopes
  resource : other.resource = g.resource
  credentialFp : other.credentialFp = g.credentialFp

namespace Ledger
variable {l later : Ledger}

theorem Extends.refl (l : Ledger) : l.Extends l :=
  ⟨List.Subset.refl _, List.Subset.refl _, List.Subset.refl _, List.Subset.refl _, List.Subset.refl _, List.Subset.refl _,
    List.Subset.refl _, List.Subset.refl _⟩

def Offers (l : Ledger) (p : PendingAuth) : Prop := ∃ uris, (p.clientId, uris) ∈ l.registered ∧ p.redirectUri ∈ uris

def Found (l : Ledger) (call : CallId) (username : String) (source : AuthSource) (authority : UserAuthority) (begun until_ : Int) : Prop :=
  ∃ at_, ⟨call, username, source, authority, at_⟩ ∈ l.readings ∧ begun ≤ at_ ∧ at_ ≤ until_

structure Approved (l : Ledger) (c : Consent) : Prop where
  offers : l.Offers c.pending
  allowed : ∀ scope ∈ c.granted, scope ∈ c.authority.allowedScopes
  found : ∃ begun, ⟨c.call, c.username, c.source, begun⟩ ∈ l.signIns ∧ l.Found c.call c.username c.source c.authority begun c.at_

structure Stands (h : String) (ac : AuthCode) (c : Consent) : Prop where
  hash : c.hash = h
  clientId : ac.clientId = c.pending.clientId
  redirectUri : ac.redirectUri = c.pending.redirectUri
  codeChallenge : ac.codeChallenge = c.pending.codeChallenge
  resource : ac.resource = c.pending.resource
  username : ac.username = c.username
  source : ac.source = c.source
  scopes : ∀ scope ∈ ac.scopes, scope ∈ c.granted

/-- The code was redeemed with the address and a verifier that it was issued for. -/
structure Redeems (prim : Primitives) (r : Redemption) (c : Consent) : Prop where
  hash : r.hash = c.hash
  redirectUri : r.redirectUri = c.pending.redirectUri
  codeVerifier : prim.pkceS256Matches r.codeVerifier c.pending.codeChallenge = true

/-- The grant is within what was consented to, by the account as it was then. -/
structure Rests (m : Making) (c : Consent) : Prop where
  hash : m.hash = c.hash
  clientId : m.grant.clientId = c.pending.clientId
  resource : m.grant.resource = c.pending.resource
  username : m.grant.username = c.username
  source : m.grant.source = c.source
  scopes : ∀ scope ∈ m.grant.scopes, scope ∈ c.granted
  credentialFp : m.grant.credentialFp = c.authority.credentialFp

structure Carries (a : AccessInfo) (m : Making) : Prop where
  grantId : a.grantId = m.grant.id
  clientId : a.clientId = m.grant.clientId
  username : a.username = m.grant.username
  source : a.source = m.grant.source
  resource : a.resource = m.grant.resource
  credentialFp : a.credentialFp = m.grant.credentialFp
  scopes : ∀ scope ∈ a.scopes, scope ∈ m.grant.scopes

structure Issues (l : Ledger) (h : String) (a : AccessInfo) (i : Issue) : Prop where
  hash : i.hash = h
  allowed : ∀ scope ∈ a.scopes, scope ∈ i.authority.allowedScopes
  found : l.Found i.call a.username a.source i.authority i.begun i.at_

def terms (l : Ledger) : Terms where
  client c := (c.clientId, c.redirectUris) ∈ l.registered
  pending p := l.Offers p
  code h ac := ∃ c ∈ l.consents, Stands h ac c
  grant g := ∃ m ∈ l.makings, m.grant.Like g
  access h a := (∃ m ∈ l.makings, Carries a m) ∧ ∃ i ∈ l.issues, l.Issues h a i

theorem terms_settled (l : Ledger) : l.terms.Settled where
  approved _ _ held := held
  used _ _ held := by
    obtain ⟨m, member, like⟩ := held
    exact ⟨m, member, like.id, like.clientId, like.username, like.source, like.scopes, like.resource, like.credentialFp⟩
  rotated _ _ _ held := by
    obtain ⟨m, member, like⟩ := held
    exact ⟨m, member, like.id, like.clientId, like.username, like.source, like.scopes, like.resource, like.credentialFp⟩

/-- A request that was let in, with the consent, the redemption and the issue that it goes back to. -/
structure Traced (prim : Primitives) (l : Ledger) (a : Admission) (c : Consent) (r : Redemption) (i : Issue) : Prop where
  approved : l.Approved c
  clientId : a.clientId = c.pending.clientId
  username : a.username = c.username
  source : a.source = c.source
  resource : a.resource = c.pending.resource
  redeems : Redeems prim r c
  hash : i.hash = prim.secretHash "access" a.token
  granted : ∀ scope ∈ a.scopes, scope ∈ c.granted
  issued : (∀ scope ∈ a.scopes, scope ∈ i.authority.allowedScopes) ∧ l.Found i.call a.username a.source i.authority i.begun i.at_
  holds : (∀ scope ∈ a.scopes, scope ∈ a.authority.allowedScopes) ∧ l.Found a.call a.username a.source a.authority a.begun a.at_
  unchanged : a.authority.credentialFp = c.authority.credentialFp

def Backed (prim : Primitives) (l : Ledger) (a : Admission) : Prop :=
  ∃ c ∈ l.consents, ∃ r ∈ l.redemptions, ∃ i ∈ l.issues, Traced prim l a c r i

theorem Offers.mono {p : PendingAuth} (offers : l.Offers p) (extends_ : l.Extends later) : later.Offers p := by
  obtain ⟨uris, member, among⟩ := offers
  exact ⟨uris, extends_.registered member, among⟩

theorem Found.mono {username : String} {source : AuthSource} {authority : UserAuthority} {begun until_ : Int}
    (found : l.Found call username source authority begun until_) (extends_ : l.Extends later) {late : Int} (past : until_ ≤ late) :
    later.Found call username source authority begun late := by
  obtain ⟨at_, member, since, before⟩ := found
  exact ⟨at_, extends_.readings member, since, Int.le_trans before past⟩

theorem Approved.mono {c : Consent} (approved : l.Approved c) (extends_ : l.Extends later) : later.Approved c where
  offers := approved.offers.mono extends_
  allowed := approved.allowed
  found := by
    obtain ⟨begun, member, found⟩ := approved.found
    exact ⟨begun, extends_.signIns member, found.mono extends_ (Int.le_refl _)⟩

theorem terms_implies (extends_ : l.Extends later) : l.terms.Implies later.terms where
  client _ member := extends_.registered member
  pending _ offers := Offers.mono offers extends_
  code _ _ stands := by
    obtain ⟨c, member, stands⟩ := stands
    exact ⟨c, extends_.consents member, stands⟩
  grant _ like := by
    obtain ⟨m, member, like⟩ := like
    exact ⟨m, extends_.makings member, like⟩
  access h a held := by
    obtain ⟨⟨m, made, carries⟩, i, issued, issues⟩ := held
    exact ⟨⟨m, extends_.makings made, carries⟩, i, extends_.issues issued, issues.hash, issues.allowed,
      issues.found.mono extends_ (Int.le_refl _)⟩

theorem Backed.mono {a : Admission} (backed : l.Backed prim a) (extends_ : l.Extends later) : later.Backed prim a := by
  obtain ⟨c, consented, r, redeemed, i, issued, traced⟩ := backed
  exact ⟨c, extends_.consents consented, r, extends_.redemptions redeemed, i, extends_.issues issued, { traced with
    approved := traced.approved.mono extends_
    issued := traced.issued.imp_right fun found => found.mono extends_ (Int.le_refl _)
    holds := traced.holds.imp_right fun found => found.mono extends_ (Int.le_refl _) }⟩

end Ledger

namespace Endpoint
variable {e : Endpoint}

def Sealed (prim : Primitives) (l : Ledger) (m : Making) : Prop :=
  ∃ c ∈ l.consents, Ledger.Rests m c ∧ ∃ r ∈ l.redemptions, Ledger.Redeems prim r c

theorem Sealed.mono {l later : Ledger} {m : Making} (sealed_ : Sealed prim l m) (extends_ : l.Extends later) : Sealed prim later m := by
  obtain ⟨c, member, rests, r, redeemed, redeems⟩ := sealed_
  exact ⟨c, extends_.consents member, rests, r, extends_.redemptions redeemed, redeems⟩

structure Chained (prim : Primitives) (e : Endpoint) : Prop where
  meets : e.store.Meets e.ledger.terms
  past : ∀ r ∈ e.ledger.readings, r.at_ ≤ e.clock
  approved : ∀ c ∈ e.ledger.consents, e.ledger.Approved c
  sealed_ : ∀ m ∈ e.ledger.makings, Sealed prim e.ledger m
  unique : (e.ledger.makings.map fun m => m.grant.id).Nodup
  named : ∀ m ∈ e.ledger.makings, m.grant.id ∈ e.named
  backed : ∀ a ∈ e.ledger.admissions, e.ledger.Backed prim a

theorem New.chained (new : e.New) : e.Chained prim := by
  obtain ⟨store, ledger⟩ := new
  have meets : e.store.Meets e.ledger.terms := by
    rw [store]
    exact .load (fun _ member => by cases member) fun _ member => by cases member
  constructor
  · exact meets
  all_goals simp [ledger, Ledger.blank]

theorem Chained.grow (chained : e.Chained prim) {l : Ledger} (extends_ : e.ledger.Extends l)
    (past : ∀ r ∈ l.readings, r ∈ e.ledger.readings ∨ r.at_ ≤ e.clock)
    (approved : ∀ c ∈ l.consents, c ∈ e.ledger.consents ∨ l.Approved c) (makings : l.makings = e.ledger.makings)
    (backed : ∀ a ∈ l.admissions, a ∈ e.ledger.admissions ∨ l.Backed prim a) : Chained prim { e with ledger := l } where
  meets := chained.meets.wider (Ledger.terms_implies extends_)
  past r member := (past r member).elim (chained.past r) id
  approved c member := (approved c member).elim (fun before => (chained.approved c before).mono extends_) id
  sealed_ m member := (chained.sealed_ m (makings ▸ member)).mono extends_
  unique := by
    dsimp only
    rw [makings]
    exact chained.unique
  named m member := chained.named m (makings ▸ member)
  backed a member := (backed a member).elim (fun before => (chained.backed a before).mono extends_) id

theorem Chained.storing (chained : e.Chained prim) {store : OAuthStore} (meets : store.Meets e.ledger.terms) {named : List String}
    (kept : e.named ⊆ named) : Chained prim { e with store, named } :=
  ⟨meets, chained.past, chained.approved, chained.sealed_, chained.unique, fun m member => kept (chained.named m member), chained.backed⟩

theorem Chained.wait (chained : e.Chained prim) {clock : Int} (later : e.clock ≤ clock) : Chained prim { e with clock } :=
  { chained with past := fun r member => Int.le_trans (chained.past r member) later }

theorem Chained.restart (chained : e.Chained prim) : e.restart.Chained prim :=
  { chained with meets := .load chained.meets.fileClients chained.meets.fileGrants }

/-! ### Sections -/

structure Since (before after : Endpoint) : Prop where
  extends_ : before.ledger.Extends after.ledger
  clock : before.clock ≤ after.clock

theorem record_extends (clock : Int) (store : OAuthStore) (l : Ledger) {β : Type} (operation : Section β) (value : β) :
    l.Extends (record prim call chance clock store l operation value) := by
  cases operation <;> simp only [record] <;> repeat' split
  all_goals constructor <;> simp

theorem perform_since {β : Type} (operation : Section β) : e.Since (e.perform prim credentials call chance operation).2 :=
  ⟨record_extends _ _ _ _ _, Int.le_refl _⟩

theorem names_kept : e.named ⊆ chance.names prim ++ e.named := List.subset_append_right _ _

theorem record_plain (clock : Int) (store : OAuthStore) (l : Ledger) {β : Type} {operation : Section β} (value : β)
    (fewer : ¬operation.Adding) : (record prim call chance clock store l operation value).consents = l.consents ∧
      (record prim call chance clock store l operation value).makings = l.makings ∧
      (record prim call chance clock store l operation value).admissions = l.admissions ∧
      ∀ r ∈ (record prim call chance clock store l operation value).readings, r ∈ l.readings ∨ r.at_ = clock := by
  cases operation with
  | registerClient | beginPending | issueCode | createGrant | rotate => exact absurd trivial fewer
  | _ =>
    simp only [record]
    repeat' split
    all_goals simp +contextual

theorem plain_kept (chained : e.Chained prim) {β : Type} {operation : Section β} (fewer : ¬operation.Adding) :
    (e.perform prim credentials call chance operation).2.Chained prim := by
  have extends_ := (@perform_since prim credentials call chance e _ operation).extends_
  obtain ⟨consents, makings, admissions, readings⟩ := @record_plain prim call
    (e.knowing credentials chance) e.clock (operation.run prim e.store e.clock (e.knowing credentials chance)).2 e.ledger _ operation
    (operation.run prim e.store e.clock (e.knowing credentials chance)).1 fewer
  have grown : Chained prim { e with ledger := (e.perform prim credentials call chance operation).2.ledger } := by
    apply chained.grow extends_
    · exact fun r member => (readings r member).imp_right Int.le_of_eq
    · exact fun c member => .inl (consents ▸ member)
    · exact makings
    · exact fun a member => .inl (admissions ▸ member)
  exact grown.storing (Section.meets grown.meets (Ledger.terms_settled _) fewer) names_kept

theorem mem_normalizeScopes {scopes : List String} {scope : String} (member : scope ∈ normalizeScopes scopes) : scope ∈ scopes := by
  simpa using (List.mem_filter.mp member).2

theorem registerClient_ok {store : OAuthStore} {clientName : Option String} {redirectUris : List String} {source : String} {t : Int}
    {c : Client} (registered : (store.registerClient clientName redirectUris source t chance).1 = .ok c) :
    c = OAuthStore.newClient clientName redirectUris source t chance := by
  unfold OAuthStore.registerClient at registered
  rcases Consistent.commit_cases (store.pruned t) chance id _ with ⟨e, done⟩ | ⟨r, draft, drafted, done⟩
  · rw [done] at registered
    cases registered
  · rw [done] at registered
    cases registered
    dsimp only at drafted
    split at drafted <;> cases drafted
    rfl

theorem register_kept (chained : e.Chained prim) (clientName : Option String) (redirectUris : List String) (source : String) (t : Int) :
    (e.perform prim credentials call chance (.registerClient clientName redirectUris source t)).2.Chained prim := by
  have extends_ := (@perform_since prim credentials call chance e _ (.registerClient clientName redirectUris source t)).extends_
  have grown : Chained prim { e with
      ledger := (e.perform prim credentials call chance (.registerClient clientName redirectUris source t)).2.ledger } := by
    apply chained.grow extends_
    all_goals simp only [perform, record]
    all_goals split <;> simp +contextual
  refine grown.storing (grown.meets.registerClient clientName redirectUris source fun ok => ?_) names_kept
  obtain ⟨c, registered⟩ : ∃ c, (e.store.registerClient clientName redirectUris source t (e.knowing credentials chance)).1 = .ok c := by
    cases value : (e.store.registerClient clientName redirectUris source t (e.knowing credentials chance)).1 with
    | error message =>
      dsimp only at ok
      rw [value] at ok
      cases ok
    | ok c => exact ⟨c, rfl⟩
  have same := registerClient_ok registered
  simp only [Ledger.terms, perform, record, Section.run, registered]
  exact same ▸ List.mem_cons_self

theorem begin_kept (chained : e.Chained prim) {p : PendingAuth} (offers : e.ledger.Offers p) :
    (e.perform prim credentials call chance (.beginPending p)).2.Chained prim :=
  chained.storing (chained.meets.beginPending offers) names_kept

theorem signIn_kept (chained : e.Chained prim) (ip username password totpCode : String) :
    (e.serve prim credentials call chance (.verifyCredentials ip username password totpCode)).2.Chained prim := by
  simp only [serve]
  split
  · exact chained
  · apply chained.grow
    · constructor <;> simp
    · exact fun r member => .inl member
    · exact fun c member => .inl member
    · rfl
    · exact fun a member => .inl member

theorem consent_kept (chained : e.Chained prim) {p : PendingAuth} {username : String} {source : AuthSource} {authority : UserAuthority}
    {granted : List String} (t : Int) (offers : e.ledger.Offers p) (allowed : ∀ scope ∈ granted, scope ∈ authority.allowedScopes)
    {begun : Int} (signedIn : ⟨call, username, source, begun⟩ ∈ e.ledger.signIns)
    (found : e.ledger.Found call username source authority begun e.clock) :
    (e.serve prim credentials call chance (.issueCode p username source authority granted t)).2.Chained prim := by
  have extends_ : e.ledger.Extends (e.serve prim credentials call chance (.issueCode p username source authority granted t)).2.ledger := by
    simp only [serve]
    split
    · constructor <;> simp
    · exact .refl _
  have grown : Chained prim { e with
      ledger := (e.serve prim credentials call chance (.issueCode p username source authority granted t)).2.ledger } := by
    apply chained.grow extends_
    · intro r member
      simp only [serve] at member
      split at member <;> exact .inl member
    · intro c member
      simp only [serve] at member
      split at member
      · rcases List.mem_cons.mp member with rfl | before
        · exact .inr (Ledger.Approved.mono ⟨offers, allowed, begun, signedIn, found⟩ extends_)
        · exact .inl before
      · exact .inl member
    · simp only [serve]
      split <;> rfl
    · intro a member
      simp only [serve] at member
      split at member <;> exact .inl member
  refine grown.storing (grown.meets.issueCode (Ledger.terms_settled _) fun ok => ?_) names_kept
  refine ⟨⟨prim.secretHash "code" (chance.randomToken "wsa_"), call, p, username, source, authority, granted, e.clock⟩, ?_,
    rfl, rfl, rfl, rfl, rfl, rfl, rfl, fun scope member => mem_normalizeScopes member⟩
  simp only [serve]
  rw [if_pos ok]
  exact List.mem_cons_self

theorem createGrant_cases {store : OAuthStore} {code clientId : String} {ac : AuthCode} {auth : UserAuthority} {scopes : List String}
    {t : Int} : (OAuthStore.createGrant prim store code clientId ac auth scopes t chance).1.isOk = false ∨
      ∃ tokens clientName, (OAuthStore.createGrant prim store code clientId ac auth scopes t chance).1 = .ok tokens ∧
        (OAuthStore.createGrant prim store code clientId ac auth scopes t chance).2.inner.grants[chance.randomToken "wsg_"]? =
          some (OAuthStore.newGrant prim clientName clientId ac auth scopes t chance) := by
  unfold OAuthStore.createGrant
  dsimp only
  split
  · exact .inl rfl
  · rename_i c _
    split
    · exact .inl rfl
    · split
      · exact .inl rfl
      · rcases Consistent.commit_cases store chance TokenError.serverError _ with ⟨e, done⟩ | ⟨r, draft, drafted, done⟩
        · rw [done]
          exact .inl rfl
        · rw [done]
          cases drafted
          exact .inr ⟨_, c.clientName, rfl, Inner.insert_get.trans (if_pos rfl)⟩

theorem Chained.making (chained : e.Chained prim) {m : Making} {issue : Issue} (sealed_ : Sealed prim e.ledger m)
    (fresh : m.grant.id ∉ e.named) {named : List String} (kept : e.named ⊆ named) (there : m.grant.id ∈ named) :
    Chained prim { e with named, ledger := { e.ledger with makings := m :: e.ledger.makings, issues := issue :: e.ledger.issues } } := by
  have extends_ : e.ledger.Extends { e.ledger with makings := m :: e.ledger.makings, issues := issue :: e.ledger.issues } := by
    constructor <;> simp
  constructor
  · exact chained.meets.wider (Ledger.terms_implies extends_)
  · exact chained.past
  · exact fun c member => (chained.approved c member).mono extends_
  · intro other member
    rcases List.mem_cons.mp member with rfl | before
    · exact sealed_.mono extends_
    · exact (chained.sealed_ other before).mono extends_
  · apply List.nodup_cons.mpr
    refine ⟨fun among => ?_, chained.unique⟩
    obtain ⟨other, member, same⟩ := List.mem_map.mp among
    exact fresh (same.subst (motive := fun id => id ∈ e.named) (chained.named other member))
  · intro other member
    rcases List.mem_cons.mp member with rfl | before
    · exact there
    · exact kept (chained.named other before)
  · exact fun a member => (chained.backed a member).mono extends_

def Redeemed (prim : Primitives) (code : String) (ac : AuthCode) (e : Endpoint) : Prop :=
  ∃ c ∈ e.ledger.consents, Ledger.Stands (prim.secretHash "code" code) ac c ∧ ∃ r ∈ e.ledger.redemptions, Ledger.Redeems prim r c

theorem create_kept (chained : e.Chained prim) (fresh : e.Fresh prim chance) {code : String} {ac : AuthCode} {auth : UserAuthority}
    {scopes : List String} {t : Int} (redeemed : Redeemed prim code ac e)
    (steady : ∀ c ∈ e.ledger.consents, c.hash = prim.secretHash "code" code → auth.credentialFp = c.authority.credentialFp)
    (within_ : ∀ scope ∈ scopes, scope ∈ ac.scopes ∧ scope ∈ auth.allowedScopes)
    (found : e.ledger.Found call ac.username ac.source auth t e.clock) :
    (e.perform prim credentials call chance (.createGrant code ac.clientId ac auth scopes t)).2.Chained prim := by
  have kept := @names_kept prim (e.knowing credentials chance) e
  rcases @createGrant_cases prim (e.knowing credentials chance) e.store code ac.clientId ac auth scopes t with
    refused | ⟨tokens, clientName, created, there⟩
  · have same : (e.perform prim credentials call chance (.createGrant code ac.clientId ac auth scopes t)).2.ledger = e.ledger := by
      simp only [perform, record, Section.run]
      split
      · rename_i made _
        rw [made] at refused
        cases refused
      · rfl
    have stored := chained.storing (chained.meets.createGrant fun name ok => absurd (refused.symm.trans ok) Bool.false_ne_true) kept
    rw [← same] at stored
    exact stored
  · obtain ⟨c, consented, stands, r, redemption, redeems⟩ := redeemed
    let m : Making := ⟨prim.secretHash "code" code,
      OAuthStore.newGrant prim clientName ac.clientId ac auth scopes t (e.knowing credentials chance)⟩
    let issue : Issue := ⟨prim.secretHash "access" (chance.randomToken "wsat_"), call, auth, t, e.clock⟩
    have rests : Ledger.Rests m c :=
      ⟨stands.hash.symm, stands.clientId, stands.resource, stands.username, stands.source,
        fun scope member => stands.scopes scope (within_ scope (mem_normalizeScopes member)).1, steady c consented stands.hash⟩
    have drawn : m.grant.id ∈ (e.knowing credentials chance).names prim := by simp [m, Chance.names, OAuthStore.newGrant]
    have made := @Chained.making prim e chained m issue ⟨c, consented, rests, r, redemption, redeems⟩ (fresh _ drawn) _ kept
      (List.mem_append_left _ drawn)
    have same : (e.perform prim credentials call chance (.createGrant code ac.clientId ac auth scopes t)).2.ledger =
        { e.ledger with makings := m :: e.ledger.makings, issues := issue :: e.ledger.issues } := by
      simp only [perform, record, Section.run]
      rw [created, there]
      rfl
    have entries : (OAuthStore.createGrant prim e.store code ac.clientId ac auth scopes t (e.knowing credentials chance)).2.Meets
        (Ledger.terms { e.ledger with makings := m :: e.ledger.makings, issues := issue :: e.ledger.issues }) := by
      apply made.meets.createGrant
      intro name _
      refine ⟨⟨m, List.mem_cons_self, rfl, rfl, rfl, rfl, rfl, rfl, rfl⟩, ?_, ?_⟩
      · exact ⟨m, List.mem_cons_self, rfl, rfl, rfl, rfl, rfl, rfl, fun _ member => member⟩
      · exact ⟨issue, List.mem_cons_self, rfl, fun scope member => (within_ scope (mem_normalizeScopes member)).2, found⟩
    have stored := made.storing entries (List.Subset.refl _)
    rw [← same] at stored
    exact stored

theorem refreshScopes_ok {grant : Grant} {auth : UserAuthority} {requested : Option (List String)} {scopes : List String}
    (allowed : OAuthStore.refreshScopes grant auth requested = .ok scopes) :
    ∀ scope ∈ scopes, scope ∈ grant.scopes ∧ scope ∈ auth.allowedScopes := by
  unfold OAuthStore.refreshScopes at allowed
  split at allowed
  · cases allowed
  · rename_i asked
    dsimp only at allowed
    split at allowed
    · cases allowed
    · cases allowed
      intro scope member
      obtain ⟨base, may⟩ := List.mem_filter.mp (mem_normalizeScopes member)
      refine ⟨?_, by simpa using may⟩
      cases requested with
      | none => exact base
      | some wanted =>
        by_contra outside
        exact asked (List.any_eq_true.mpr ⟨scope, base, by simpa using outside⟩)

def Granted (grant : Grant) (e : Endpoint) : Prop := ∃ m ∈ e.ledger.makings, m.grant.Like grant

theorem Chained.same_making (chained : e.Chained prim) {m other : Making} (member : m ∈ e.ledger.makings) (among : other ∈ e.ledger.makings)
    (same : m.grant.id = other.grant.id) : m = other := List.inj_on_of_nodup_map chained.unique member among same

theorem rotate_kept (chained : e.Chained prim) {grant : Grant} {auth : Option UserAuthority} (requested : Option (List String)) {t : Int}
    (granted : Granted grant e) (found : ∀ a, auth = some a → e.ledger.Found call grant.username grant.source a t e.clock) :
    (e.perform prim credentials call chance (.rotate grant auth requested t)).2.Chained prim := by
  have extends_ := (@perform_since prim credentials call chance e _ (.rotate grant auth requested t)).extends_
  have grown : Chained prim { e with ledger := (e.perform prim credentials call chance (.rotate grant auth requested t)).2.ledger } := by
    apply chained.grow extends_
    all_goals simp only [perform, record]
    all_goals split <;> simp +contextual
  refine grown.storing (grown.meets.rotate (Ledger.terms_settled _) ?_) names_kept
  intro authority scopes g known unchanged allowed there ok
  obtain ⟨m, member, like⟩ := granted
  obtain ⟨named, other, among, alike⟩ := chained.meets.inner.grants _ g there
  obtain rfl := chained.same_making member among (like.id.symm.trans (named.symm.trans alike.id))
  subst known
  have recorded : (⟨prim.secretHash "access" (chance.randomToken "wsat_"), call, authority, t, e.clock⟩ : Issue) ∈
      (e.perform prim credentials call chance (.rotate grant (some authority) requested t)).2.ledger.issues := by
    cases value : (OAuthStore.rotate prim e.store grant (some authority) requested t (e.knowing credentials chance)).1 with
    | error message =>
      dsimp only at ok
      rw [value] at ok
      cases ok
    | ok tokens =>
      simp only [perform, record, Section.run, value]
      exact List.mem_cons_self
  have may := refreshScopes_ok allowed
  refine ⟨⟨m, extends_.makings member, alike.id, alike.clientId, alike.username, alike.source, alike.resource, alike.credentialFp, ?_⟩,
    _, recorded, rfl, fun scope asked => (may scope asked).2, ?_⟩
  · exact fun scope asked => like.scopes ▸ (may scope asked).1
  · have now := (found authority rfl).mono extends_ (Int.le_refl _)
    rw [like.username, ← alike.username, like.source, ← alike.source] at now
    exact now

theorem consumeCode_ok {store : OAuthStore} {code clientId redirectUri codeVerifier : String} {resource : Option String} {t : Int}
    {ac : AuthCode} (taken : (OAuthStore.consumeCode prim store code clientId redirectUri codeVerifier resource t chance).1 = .ok ac) :
    store.inner.codes[prim.secretHash "code" code]? = some ac ∧ ac.clientId = clientId ∧ ac.redirectUri = redirectUri ∧
      prim.pkceS256Matches codeVerifier ac.codeChallenge = true := by
  unfold OAuthStore.consumeCode at taken
  dsimp only at taken
  split at taken
  · split at taken <;> cases taken
  · rename_i found there
    split at taken
    · cases taken
    · rename_i client
      split at taken
      · cases taken
      · rename_i address
        split at taken
        · cases taken
        · rename_i verifier
          split at taken
          · cases taken
          · cases taken
            have before := (Inner.prune_among t store.inner).codes _ _ there
            exact ⟨before, not_not.mp client, not_not.mp address, by simpa using verifier⟩

theorem findGrant_ok {store : OAuthStore} {refreshToken clientId : String} {resource : Option String} {t : Int} {grant : Grant}
    (found : (OAuthStore.findGrant prim store refreshToken clientId resource t chance).1 = .ok grant) :
    ∃ k : String, store.inner.grants[k]? = some grant := by
  have checked : ∀ g : Grant, OAuthStore.checkGrant g clientId resource = .ok grant → g = grant := by
    intro g ok
    unfold OAuthStore.checkGrant at ok
    split at ok
    · cases ok
    · split at ok <;> cases ok
      rfl
  unfold OAuthStore.findGrant at found
  dsimp only at found
  split at found
  · split at found
    · rename_i id _ g retry
      obtain rfl := checked g found
      have there := (Option.filter_eq_some_iff.mp retry).1
      exact ⟨_, (Inner.prune_among t store.inner).grants _ _ there⟩
    · rename_i id _ _ _
      cases removed : ((store.pruned t).commit chance TokenError.serverError fun d => .ok ((), d.removeGrant id)).1 with
      | error e =>
        rw [removed] at found
        cases found
      | ok done =>
        rw [removed] at found
        cases found
  · split at found
    · cases found
    · rename_i g current
      obtain rfl := checked g found
      obtain ⟨k, -, there⟩ := Option.bind_eq_some_iff.mp current
      exact ⟨k, (Inner.prune_among t store.inner).grants _ _ there⟩

theorem validateAccess_ok {store : OAuthStore} {token resource : String} {t : Int} {info : AccessInfo}
    (valid : (OAuthStore.validateAccess prim store token resource t).1 = some info) :
    store.inner.access[prim.secretHash "access" token]? = some info ∧ info.resource = resource := by
  unfold OAuthStore.validateAccess at valid
  dsimp only at valid
  split at valid
  · cases valid
  · rename_i found there
    split at valid
    · cases valid
    · split at valid
      · cases valid
      · rename_i same
        split at valid
        · cases valid
        · cases valid
          exact ⟨there, not_not.mp same⟩

structure Accepted (prim : Primitives) (token resource : String) (info : AccessInfo) (e : Endpoint) : Prop where
  resource : info.resource = resource
  making : ∃ m ∈ e.ledger.makings, Ledger.Carries info m
  issue : ∃ i ∈ e.ledger.issues, e.ledger.Issues (prim.secretHash "access" token) info i

theorem admit_kept (chained : e.Chained prim) {token resource : String} {info : AccessInfo} {authority : UserAuthority} {t : Int}
    (accepted : Accepted prim token resource info e) (unchanged : authority.credentialFp = info.credentialFp)
    (found : e.ledger.Found call info.username info.source authority t e.clock) :
    (e.serve prim credentials call chance (.letIn token resource info.source authority info.username info.clientId
      (info.scopes.filter fun s => authority.allowedScopes.contains s) t)).2.Chained prim := by
  obtain ⟨resourced, ⟨m, made, carries⟩, i, issued, issues⟩ := accepted
  obtain ⟨c, consented, rests, r, redeemed, redeems⟩ := chained.sealed_ m made
  have traced : e.ledger.Backed prim ⟨token, resource, call, info.username, info.clientId, info.source,
      info.scopes.filter fun s => authority.allowedScopes.contains s, authority, t, e.clock⟩ := by
    refine ⟨c, consented, r, redeemed, i, issued, ?_⟩
    have within_ : ∀ scope ∈ info.scopes.filter fun s => authority.allowedScopes.contains s,
        scope ∈ info.scopes ∧ scope ∈ authority.allowedScopes := by
      intro scope member
      obtain ⟨among, may⟩ := List.mem_filter.mp member
      exact ⟨among, by simpa using may⟩
    constructor
    · exact chained.approved c consented
    · exact carries.clientId.trans rests.clientId
    · exact carries.username.trans rests.username
    · exact carries.source.trans rests.source
    · exact resourced.symm.trans (carries.resource.trans rests.resource)
    · exact redeems
    · exact issues.hash
    · exact fun scope member => rests.scopes scope (carries.scopes scope (within_ scope member).1)
    · exact ⟨fun scope member => issues.allowed scope (within_ scope member).1, issues.found⟩
    · exact ⟨fun scope member => (within_ scope member).2, found⟩
    · exact unchanged.trans (carries.credentialFp.trans rests.credentialFp)
  have extends_ : e.ledger.Extends { e.ledger with
      admissions := ⟨token, resource, call, info.username, info.clientId, info.source,
        info.scopes.filter fun s => authority.allowedScopes.contains s, authority, t, e.clock⟩ :: e.ledger.admissions } := by
    constructor <;> simp
  apply chained.grow extends_
  · exact fun r member => .inl member
  · exact fun c member => .inl member
  · rfl
  · intro a member
    rcases List.mem_cons.mp member with rfl | before
    · exact .inr (traced.mono extends_)
    · exact .inl before

end Endpoint
end Mcp
