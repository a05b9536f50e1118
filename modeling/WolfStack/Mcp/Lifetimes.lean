import WolfStack.Mcp.CodeReplay
import WolfStack.Mcp.Reuse

/-! When does a token stop working? An access token has an end of its own, which may lie beyond
that of its grant; and only some calls look at the end of the grant. -/

namespace Mcp
open Effects
open Std (TreeMap)
attribute [local irreducible] Inner.prune

variable {prim : Primitives} {call : CallId} {chance : Chance} {permitted : Policy}

/-- Tokens as they are issued and accepted, at the times that the calls have read. A grant is taken
down as it stands: `extended` with a new refresh token, `accepted` and `renewed` as it was before. -/
inductive Life where
  | issued (hash : String) (at_ : Int)
  | extended (grant : Grant)
  | accepted (hash : String) (grant : Grant) (at_ : Int)
  | renewed (grant : Grant) (at_ : Int)

structure Absolute (lives : List Life) : Prop where
  access : ∀ h g t, .accepted h g t ∈ lives → (∃ u, .issued h u ∈ lives) ∧ (∀ u, .issued h u ∈ lives → t < u + accessTtlSecs) ∧
    t < g.refreshExpiresAt ∧ t < g.createdAt + grantMaxLifetimeSecs
  refresh : ∀ g t, .renewed g t ∈ lives → t < g.refreshExpiresAt ∧ t < g.createdAt + grantMaxLifetimeSecs

def lived (prim : Primitives) (chance : Chance) (before after : Inner) : {β : Type} → Section β → β → List Life
  | _, .createGrant _ _ _ _ _ t, value =>
    match value, after.grants[chance.randomToken "wsg_"]? with
    | .ok _, some g => [.issued (prim.secretHash "access" (chance.randomToken "wsat_")) t, .extended g]
    | _, _ => []
  | _, .rotate grant _ _ t, value =>
    match value, before.grants[grant.id]?, after.grants[grant.id]? with
    | .ok _, some old, some g => [.renewed old t, .issued (prim.secretHash "access" (chance.randomToken "wsat_")) t, .extended g]
    | _, _, _ => []
  | _, .validateAccess token _ t, value =>
    match value with
    | none => []
    | some info =>
      match before.grants[info.grantId]? with
      | none => []
      | some g => [.accepted (prim.secretHash "access" token) g t]
  | _, _, _ => []

structure Chronicle where
  server : Server
  lives : List Life

namespace Chronicle

def perform (prim : Primitives) (call : CallId) (w : Chronicle) (chance : Chance) {β : Type} (operation : Section β) : β × Chronicle :=
  let (value, server) := w.server.perform prim call chance operation
  (value, ⟨server, lived prim chance w.server.store.inner server.store.inner operation value ++ w.lives⟩)

structure New (w : Chronicle) : Prop where
  server : w.server.New
  lives : w.lives = []

end Chronicle

def chronicleSystem (prim : Primitives) (permitted : Policy) : System Chronicle Section CallId Unit where
  moves before after := (∃ clock, before.server.clock ≤ clock ∧ after = { before with server := { before.server with clock } }) ∨
    after = { before with server := before.server.restart }
  bodies _ := { program | Call prim program }
  commits call _ before operation value after := before.server.boot = call.1 ∧ ∃ chance, before.server.Fresh prim chance ∧
    permitted before.server chance operation ∧ (value, after) = before.perform prim call chance operation
  stops _ _ := False

/-- A refresh more than an access token's life before its grant ends for good, and of a call that is
not as old as a refresh token may get. -/
def lastingRefresh : Policy := fun s _ _ operation => match operation with
  | .rotate grant _ _ t => ∀ g, s.store.inner.grants[grant.id]? = some g →
    t + accessTtlSecs ≤ g.createdAt + grantMaxLifetimeSecs ∧ s.clock + accessTtlSecs ≤ t + refreshTtlSecs
  | _ => True

/-! ### What sections leave of grants and access tokens -/

namespace OAuthStore
variable {s middle : OAuthStore} {ε ρ : Type} {t : Int} {owners : String → Option String}

structure Dwindles (before after : OAuthStore) : Prop where
  grants : ∀ (k : String) g, after.inner.grants[k]? = some g → ∃ old u, before.inner.grants[k]? = some old ∧ g = { old with lastUsedAt := u }
  access : ∀ (h : String) a, after.inner.access[h]? = some a → before.inner.access[h]? = some a
  file : ∀ f ∈ after.file.grants, f ∈ before.file.grants ∨ ∃ k : String, after.inner.grants[k]? = some f

theorem dwindles_refl : s.Dwindles s := ⟨fun _ g found => ⟨g, g.lastUsedAt, found, rfl⟩, fun _ _ found => found, fun _ member => .inl member⟩

theorem quiet_dwindles {after : OAuthStore} (quiet : Quiet owners t s after) : s.Dwindles after := by
  refine ⟨quiet.keeps.grants, quiet.keeps.access, fun f member => ?_⟩
  obtain ⟨middle, -, -, rfl | ⟨-, -, written⟩⟩ := quiet
  · exact .inl member
  · rw [written] at member
    exact .inr (Inner.mem_snapshot.mp member)

theorem commit_dwindles {failed : String → ε} {f : Inner → Except ε (ρ × Inner)} (dwindles : s.Dwindles middle)
    (drafts : ∀ r draft, f middle.inner = .ok (r, draft) → draft.grants = middle.inner.grants ∧ draft.access = middle.inner.access) :
    s.Dwindles (middle.commit chance failed f).2 := by
  rcases Consistent.commit_cases middle chance failed f with ⟨e, done⟩ | ⟨r, draft, drafted, done⟩
  · rw [done]
    exact dwindles
  · rw [done]
    obtain ⟨grants, access⟩ := drafts r draft drafted
    exact ⟨fun k g found => dwindles.grants k g (grants ▸ found), fun h a found => dwindles.access h a (access ▸ found),
      fun f member => .inr (Inner.mem_snapshot.mp member)⟩

theorem registerClient_dwindles (tidy : s.inner.Tidy owners) (clientName : Option String) (redirectUris : List String) (source : String) :
    s.Dwindles (s.registerClient clientName redirectUris source t chance).2 := by
  apply commit_dwindles (quiet_dwindles (pruned_quiet tidy))
  intro r draft drafted
  dsimp only at drafted
  split at drafted
  · cases drafted
  · rename_i room found
    cases drafted
    split at found
    · obtain ⟨victim, -, rfl⟩ := Option.map_eq_some_iff.mp found
      exact ⟨rfl, rfl⟩
    · cases found
      exact ⟨rfl, rfl⟩

theorem issueCode_dwindles (tidy : s.inner.Tidy owners) (p : PendingAuth) (username : String) (source : AuthSource) (granted : List String) :
    s.Dwindles (issueCode prim s p username source granted t chance).2 := by
  have pruned : s.Dwindles (s.pruned t) := quiet_dwindles (pruned_quiet tidy)
  unfold issueCode
  dsimp only
  split
  · exact pruned
  · apply commit_dwindles pruned
    intro r draft drafted
    cases drafted
    unfold approveClient
    split <;> exact ⟨rfl, rfl⟩

structure Placed (h : String) (t : Int) (g : Grant) (before after : OAuthStore) : Prop where
  grants : ∀ k : String, after.inner.grants[k]? = if k = g.id then some g else before.inner.grants[k]?
  access : ∀ (k : String) a, after.inner.access[k]? = some a → (k = h ∧ a.grantId = g.id ∧ a.expiresAt = t + accessTtlSecs) ∨
    before.inner.access[k]? = some a
  file : ∀ f ∈ after.file.grants, ∃ k : String, after.inner.grants[k]? = some f

theorem issueAccess_found {d : Inner} {h k : String} {g : Grant} {scopes : List String} {a : AccessInfo}
    (found : (d.issueAccess h g scopes t).access[k]? = some a) :
    (k = h ∧ a.grantId = g.id ∧ a.expiresAt = t + accessTtlSecs) ∨ d.access[k]? = some a := by
  unfold Inner.issueAccess at found
  rw [Inner.insert_get] at found
  split at found
  · rename_i same
    cases found
    exact .inl ⟨same, rfl, rfl⟩
  · exact .inr found

theorem createGrant_places (code clientId : String) (ac : AuthCode) (auth : UserAuthority) (scopes : List String) :
    ((createGrant prim s code clientId ac auth scopes t chance).1.isOk = false ∧
        (createGrant prim s code clientId ac auth scopes t chance).2 = s) ∨
      ∃ tokens clientName, (createGrant prim s code clientId ac auth scopes t chance).1 = .ok tokens ∧
        Placed (prim.secretHash "access" (chance.randomToken "wsat_")) t (newGrant prim clientName clientId ac auth scopes t chance) s
          (createGrant prim s code clientId ac auth scopes t chance).2 := by
  unfold createGrant
  dsimp only
  split
  · exact .inl ⟨rfl, rfl⟩
  · rename_i c _
    split
    · exact .inl ⟨rfl, rfl⟩
    · split
      · exact .inl ⟨rfl, rfl⟩
      · rcases Consistent.commit_cases s chance TokenError.serverError _ with ⟨e, done⟩ | ⟨r, draft, drafted, done⟩
        · rw [done]
          exact .inl ⟨rfl, rfl⟩
        · rw [done]
          cases drafted
          refine .inr ⟨_, c.clientName, rfl, fun k => ?_, fun k a found => issueAccess_found found, fun f member => Inner.mem_snapshot.mp member⟩
          exact Inner.insert_get

theorem rotate_places {grant : Grant} {auth : Option UserAuthority} {requested : Option (List String)} (tidy : s.inner.Tidy owners) :
    ((rotate prim s grant auth requested t chance).1.isOk = false ∧ s.Dwindles (rotate prim s grant auth requested t chance).2) ∨
      ∃ tokens old, (rotate prim s grant auth requested t chance).1 = .ok tokens ∧ s.inner.refreshIndex[grant.refreshHash]? = some grant.id ∧
        s.inner.grants[grant.id]? = some old ∧ Placed (prim.secretHash "access" (chance.randomToken "wsat_")) t
          (rotated old (prim.secretHash "refresh" (chance.randomToken "wsrt_")) t) s (rotate prim s grant auth requested t chance).2 := by
  unfold rotate
  dsimp only
  split
  · exact .inl ⟨rfl, dwindles_refl⟩
  · rename_i current
    split
    · exact .inl ⟨rfl, dwindles_refl⟩
    · split
      · refine .inl ⟨?_, quiet_dwindles (removal_quiet (t := t) s (.refl _) tidy rfl grant.id)⟩
        cases (s.commit chance TokenError.serverError fun d => .ok ((), d.removeGrant grant.id)).1 <;> rfl
      · split
        · exact .inl ⟨rfl, dwindles_refl⟩
        · split
          · exact .inl ⟨rfl, dwindles_refl⟩
          · rcases Consistent.commit_cases s chance TokenError.serverError _ with ⟨e, done⟩ | ⟨r, draft, drafted, done⟩
            · rw [done]
              exact .inl ⟨rfl, dwindles_refl⟩
            · rw [done]
              split at drafted
              · cases drafted
              · rename_i old there
                cases drafted
                refine .inr ⟨_, old, rfl, not_not.mp current, there, fun k => ?_, fun k a found => issueAccess_found found,
                  fun f member => Inner.mem_snapshot.mp member⟩
                have named : grant.id = (rotated old (prim.secretHash "refresh" (chance.randomToken "wsrt_")) t).id := (tidy.keyed _ old there).symm
                rw [← named]
                exact Inner.insert_get

theorem findGrant_found {refreshToken clientId : String} {resource : Option String} {grant : Grant}
    (found : (findGrant prim s refreshToken clientId resource t chance).1 = .ok grant) :
    ∃ id : String, (s.inner.prune t).grants[id]? = some grant := by
  have checked : ∀ {g : Grant}, checkGrant g clientId resource = .ok grant → g = grant := by
    intro g passed
    unfold checkGrant at passed
    split at passed
    · cases passed
    · split at passed
      · cases passed
      · exact Except.ok.inj passed
  unfold findGrant at found
  dsimp only at found
  split at found
  · rename_i grantId _
    split at found
    · rename_i g retried
      obtain ⟨there, -⟩ := Option.filter_eq_some_iff.mp retried
      exact ⟨grantId, checked found ▸ there⟩
    · have failed := @OAuthStore.bind_failed _ _ Grant
        ((s.pruned t).commit chance TokenError.serverError fun d => .ok ((), d.removeGrant grantId)).1
        (.invalidGrant "refresh token was already used; the grant has been revoked")
      exact absurd (failed.symm.trans (congrArg (fun value => value.isOk) found)) Bool.false_ne_true
  · split at found
    · cases found
    · rename_i g current
      obtain ⟨id, -, there⟩ := Option.bind_eq_some_iff.mp current
      exact ⟨id, checked found ▸ there⟩

theorem validateAccess_found {token resource : String} {info : AccessInfo} (ok : (validateAccess prim s token resource t).1 = some info) :
    s.inner.access[prim.secretHash "access" token]? = some info ∧ t < info.expiresAt := by
  refine ⟨Consistent.validateAccess_some ok, ?_⟩
  unfold validateAccess at ok
  dsimp only at ok
  split at ok
  · cases ok
  · split at ok
    · cases ok
    · rename_i live
      split at ok
      · cases ok
      · split at ok
        · cases ok
        · cases ok
          exact Int.not_le.mp live

end OAuthStore

def Section.Tokenless : {β : Type} → Section β → Prop
  | _, .createGrant .. | _, .rotate .. => False
  | _, _ => True

theorem Section.dwindles {store : OAuthStore} {owners : String → Option String} (tidy : store.inner.Tidy owners) {clock : Int} {β : Type}
    {operation : Section β} (tokenless : operation.Tokenless) : store.Dwindles (operation.run prim store clock chance).2 := by
  cases operation with
  | createGrant | rotate => exact tokenless.elim
  | now => exact OAuthStore.dwindles_refl
  | authority => exact OAuthStore.dwindles_refl
  | registerClient clientName redirectUris source t => exact OAuthStore.registerClient_dwindles tidy clientName redirectUris source
  | list => exact OAuthStore.quiet_dwindles (OAuthStore.pruned_quiet tidy)
  | deleteClient clientId => exact OAuthStore.quiet_dwindles (OAuthStore.deleteClient_quiet (t := clock) tidy clientId)
  | beginPending p => exact OAuthStore.quiet_dwindles (OAuthStore.beginPending_quiet tidy p)
  | peekPending id => exact OAuthStore.quiet_dwindles (OAuthStore.pruned_quiet tidy)
  | takePending id approver => exact OAuthStore.quiet_dwindles (OAuthStore.takePending_quiet tidy id)
  | issueCode p username source granted t => exact OAuthStore.issueCode_dwindles tidy p username source granted
  | consumeCode code clientId redirectUri codeVerifier resource t =>
    exact OAuthStore.quiet_dwindles (OAuthStore.consumeCode_quiet tidy code clientId redirectUri codeVerifier resource)
  | findGrant refreshToken clientId resource t => exact OAuthStore.quiet_dwindles (OAuthStore.findGrant_quiet tidy refreshToken clientId resource)
  | validateAccess token resource t => exact OAuthStore.quiet_dwindles (OAuthStore.validateAccess_quiet (t := clock) tidy token resource t)
  | revokeToken token clientId => exact OAuthStore.quiet_dwindles (OAuthStore.revokeToken_quiet (t := clock) tidy token clientId)
  | revokeGrant grantId => exact OAuthStore.quiet_dwindles (OAuthStore.revokeGrant_quiet (t := clock) tidy grantId)
  | revokeUser username => exact OAuthStore.quiet_dwindles (OAuthStore.revokeAny_quiet (t := clock) tidy _)
  | revokeAll => exact OAuthStore.quiet_dwindles (OAuthStore.revokeAny_quiet (t := clock) tidy _)

/-! ### The invariant -/

namespace Chronicle

/-- The grant does not outlast its ninety days, and its end was taken down with its refresh token. -/
structure Sound (lives : List Life) (g : Grant) : Prop where
  ends : g.refreshExpiresAt ≤ g.createdAt + grantMaxLifetimeSecs
  known : ∃ u, .extended { g with lastUsedAt := u } ∈ lives

structure Bounded (w : Chronicle) : Prop where
  grants : ∀ (k : String) g, w.server.store.inner.grants[k]? = some g → Sound w.lives g
  file : ∀ f ∈ w.server.store.file.grants, Sound w.lives f
  access : ∀ (h : String) a, w.server.store.inner.access[h]? = some a →
    (∃ u, .issued h u ∈ w.lives ∧ a.expiresAt = u + accessTtlSecs ∧ u ≤ w.server.clock) ∧
      ∀ g, w.server.store.inner.grants[a.grantId]? = some g → a.expiresAt ≤ g.refreshExpiresAt
  issuedNamed : ∀ h u, .issued h u ∈ w.lives → h ∈ w.server.named
  extendedNamed : ∀ g, .extended g ∈ w.lives → g.refreshHash ∈ w.server.named
  issuedOnce : ∀ h u v, .issued h u ∈ w.lives → .issued h v ∈ w.lives → u = v
  extendedOnce : ∀ g other, .extended g ∈ w.lives → .extended other ∈ w.lives → g.refreshHash = other.refreshHash → g = other
  absolute : Absolute w.lives

variable {w : Chronicle}

theorem Sound.later {lives : List Life} {g : Grant} (sound : Sound lives g) (u : Int) : Sound lives { g with lastUsedAt := u } :=
  ⟨sound.ends, sound.known⟩

theorem Sound.more {lives : List Life} {g : Grant} (sound : Sound lives g) (news : List Life) : Sound (news ++ lives) g :=
  ⟨sound.ends, sound.known.imp fun _ member => List.mem_append_right _ member⟩

theorem Bounded.same_end (bounded : w.Bounded) {g old : Grant} (sound : Sound w.lives g) (known : .extended old ∈ w.lives)
    (same : g.refreshHash = old.refreshHash) : g.refreshExpiresAt = old.refreshExpiresAt := by
  obtain ⟨u, there⟩ := sound.known
  have alike := bounded.extendedOnce { g with lastUsedAt := u } old there known same
  rw [← alike]

theorem New.bounded (new : w.New) : w.Bounded := by
  obtain ⟨server, lives⟩ := new
  have memory : ∀ k : String, w.server.store.inner.grants[k]? = none := by
    intro k
    rw [server.store]
    exact TreeMap.getElem?_emptyc
  have file : w.server.store.file.grants = [] := by rw [server.store]; rfl
  have access : ∀ h : String, w.server.store.inner.access[h]? = none := by
    intro h
    rw [server.store]
    exact TreeMap.getElem?_emptyc
  have absolute : Absolute w.lives := by constructor <;> simp [lives]
  constructor
  case absolute => exact absolute
  all_goals simp [memory, file, access, lives]

theorem Bounded.wait (bounded : w.Bounded) {clock : Int} (later : w.server.clock ≤ clock) :
    Bounded { w with server := { w.server with clock } } where
  __ := bounded
  access h a found := by
    obtain ⟨⟨u, issued, ends, past⟩, last⟩ := bounded.access h a found
    exact ⟨⟨u, issued, ends, Int.le_trans past later⟩, last⟩

theorem Bounded.restart (bounded : w.Bounded) : Bounded { w with server := w.server.restart } where
  __ := bounded
  grants _ g found := bounded.file g (load_grants found).1
  access _ a found := absurd (found.symm.trans TreeMap.getElem?_emptyc) (Option.some_ne_none a)

theorem Bounded.dwindling (bounded : w.Bounded) {server : Server} (dwindles : w.server.store.Dwindles server.store)
    (clock : server.clock = w.server.clock) (named : ∀ name ∈ w.server.named, name ∈ server.named) : Bounded ⟨server, w.lives⟩ := by
  have grants : ∀ (k : String) g, server.store.inner.grants[k]? = some g → Sound w.lives g := by
    intro k g found
    obtain ⟨old, u, there, rfl⟩ := dwindles.grants k g found
    exact (bounded.grants k old there).later u
  refine { bounded with grants, file := ?_, access := ?_, issuedNamed := ?_, extendedNamed := ?_ }
  · intro f member
    rcases dwindles.file f member with earlier | ⟨k, found⟩
    · exact bounded.file f earlier
    · exact grants k f found
  · intro h a found
    obtain ⟨⟨u, issued, ends, past⟩, last⟩ := bounded.access h a (dwindles.access h a found)
    refine ⟨⟨u, issued, ends, clock.symm ▸ past⟩, fun g there => ?_⟩
    obtain ⟨old, v, before, rfl⟩ := dwindles.grants a.grantId g there
    exact last old before
  · exact fun h u issued => named h (bounded.issuedNamed h u issued)
  · exact fun g extended => named _ (bounded.extendedNamed g extended)

theorem Bounded.placing (bounded : w.Bounded) {server : Server} {h : String} {t : Int} {g : Grant}
    (placed : OAuthStore.Placed h t g w.server.store server.store) (clock : server.clock = w.server.clock)
    (named : ∀ name ∈ w.server.named, name ∈ server.named) (past : t ≤ w.server.clock)
    (freshAccess : h ∉ w.server.named) (freshRefresh : g.refreshHash ∉ w.server.named) (access : h ∈ server.named)
    (refresh : g.refreshHash ∈ server.named) (ends : g.refreshExpiresAt ≤ g.createdAt + grantMaxLifetimeSecs)
    (covers : t + accessTtlSecs ≤ g.refreshExpiresAt)
    (older : ∀ (k : String) a, w.server.store.inner.access[k]? = some a → a.grantId = g.id → a.expiresAt ≤ g.refreshExpiresAt) :
    Bounded ⟨server, .issued h t :: .extended g :: w.lives⟩ := by
  have grants : ∀ (k : String) other, server.store.inner.grants[k]? = some other →
      (k = g.id ∧ other = g) ∨ (k ≠ g.id ∧ w.server.store.inner.grants[k]? = some other) := by
    intro k other found
    rw [placed.grants] at found
    split at found
    · rename_i same
      cases found
      exact .inl ⟨same, rfl⟩
    · rename_i apart
      exact .inr ⟨apart, found⟩
  have mine : Sound (.issued h t :: .extended g :: w.lives) g :=
    ⟨ends, g.lastUsedAt, List.mem_cons_of_mem _ List.mem_cons_self⟩
  have sound : ∀ (k : String) other, server.store.inner.grants[k]? = some other → Sound (.issued h t :: .extended g :: w.lives) other := by
    intro k other found
    rcases grants k other found with ⟨-, rfl⟩ | ⟨-, there⟩
    · exact mine
    · exact (bounded.grants k other there).more [.issued h t, .extended g]
  have unnamed : ∀ u, .issued h u ∉ w.lives := fun u issued => freshAccess (bounded.issuedNamed h u issued)
  have unknown : ∀ other, .extended other ∈ w.lives → g.refreshHash ≠ other.refreshHash := fun other extended same =>
    freshRefresh (same ▸ bounded.extendedNamed other extended)
  constructor
  case grants => exact sound
  case file =>
    intro f member
    obtain ⟨k, found⟩ := placed.file f member
    exact sound k f found
  case access =>
    intro k a found
    rcases placed.access k a found with ⟨rfl, belongs, expires⟩ | there
    · refine ⟨⟨t, List.mem_cons_self, expires, clock.symm ▸ past⟩, fun other live => ?_⟩
      rw [belongs] at live
      rcases grants g.id other live with ⟨-, rfl⟩ | ⟨apart, -⟩
      · rw [expires]
        exact covers
      · exact absurd rfl apart
    · obtain ⟨⟨u, issued, expires, before⟩, last⟩ := bounded.access k a there
      refine ⟨⟨u, List.mem_cons_of_mem _ (List.mem_cons_of_mem _ issued), expires, clock.symm ▸ before⟩, fun other live => ?_⟩
      rcases grants a.grantId other live with ⟨same, rfl⟩ | ⟨-, kept⟩
      · exact older k a there same
      · exact last other kept
  case issuedNamed =>
    intro k u issued
    simp only [List.mem_cons, Life.issued.injEq, reduceCtorEq, false_or] at issued
    rcases issued with ⟨rfl, -⟩ | earlier
    · exact access
    · exact named k (bounded.issuedNamed k u earlier)
  case extendedNamed =>
    intro other extended
    simp only [List.mem_cons, Life.extended.injEq, reduceCtorEq, false_or] at extended
    rcases extended with rfl | earlier
    · exact refresh
    · exact named _ (bounded.extendedNamed other earlier)
  case issuedOnce =>
    intro k u v first second
    simp only [List.mem_cons, Life.issued.injEq, reduceCtorEq, false_or] at first second
    rcases first with ⟨rfl, rfl⟩ | first <;> rcases second with ⟨same, rfl⟩ | second
    · rfl
    · exact absurd second (unnamed v)
    · exact absurd (same ▸ first) (unnamed u)
    · exact bounded.issuedOnce k u v first second
  case extendedOnce =>
    intro one other first second same
    simp only [List.mem_cons, Life.extended.injEq, reduceCtorEq, false_or] at first second
    rcases first with rfl | first <;> rcases second with rfl | second
    · rfl
    · exact absurd same (unknown other second)
    · exact absurd same.symm (unknown one first)
    · exact bounded.extendedOnce one other first second same
  case absolute =>
    constructor
    · intro k other u accepted
      simp only [List.mem_cons, reduceCtorEq, false_or] at accepted
      obtain ⟨⟨v, issued⟩, within, rest⟩ := bounded.absolute.access k other u accepted
      refine ⟨⟨v, List.mem_cons_of_mem _ (List.mem_cons_of_mem _ issued)⟩, fun i member => ?_, rest⟩
      simp only [List.mem_cons, Life.issued.injEq, reduceCtorEq, false_or] at member
      rcases member with ⟨rfl, -⟩ | earlier
      · exact absurd issued (unnamed v)
      · exact within i earlier
    · intro other u renewed
      simp only [List.mem_cons, reduceCtorEq, false_or] at renewed
      exact bounded.absolute.refresh other u renewed

theorem Bounded.renewing (bounded : w.Bounded) {g : Grant} {t : Int} (live : t < g.refreshExpiresAt)
    (young : t < g.createdAt + grantMaxLifetimeSecs) : Bounded { w with lives := .renewed g t :: w.lives } where
  grants k g found := (bounded.grants k g found).more [_]
  file f member := (bounded.file f member).more [_]
  access h a found := by
    obtain ⟨⟨u, issued, rest⟩, last⟩ := bounded.access h a found
    exact ⟨⟨u, List.mem_cons_of_mem _ issued, rest⟩, last⟩
  issuedNamed := by simpa using bounded.issuedNamed
  extendedNamed := by simpa using bounded.extendedNamed
  issuedOnce := by simpa using bounded.issuedOnce
  extendedOnce := by simpa using bounded.extendedOnce
  absolute := by
    constructor
    · simpa using bounded.absolute.access
    · intro other u renewed
      simp only [List.mem_cons, Life.renewed.injEq] at renewed
      rcases renewed with ⟨rfl, rfl⟩ | earlier
      · exact ⟨live, young⟩
      · exact bounded.absolute.refresh other u earlier

theorem Bounded.accepting (bounded : w.Bounded) {h : String} {a : AccessInfo} {g : Grant} {t : Int}
    (found : w.server.store.inner.access[h]? = some a) (there : w.server.store.inner.grants[a.grantId]? = some g) (live : t < a.expiresAt) :
    Bounded { w with lives := .accepted h g t :: w.lives } where
  grants k g found := (bounded.grants k g found).more [_]
  file f member := (bounded.file f member).more [_]
  access h a found := by
    obtain ⟨⟨u, issued, rest⟩, last⟩ := bounded.access h a found
    exact ⟨⟨u, List.mem_cons_of_mem _ issued, rest⟩, last⟩
  issuedNamed := by simpa using bounded.issuedNamed
  extendedNamed := by simpa using bounded.extendedNamed
  issuedOnce := by simpa using bounded.issuedOnce
  extendedOnce := by simpa using bounded.extendedOnce
  absolute := by
    constructor
    · intro k other u accepted
      simp only [List.mem_cons, Life.accepted.injEq, reduceCtorEq, false_or] at accepted ⊢
      rcases accepted with ⟨rfl, rfl, rfl⟩ | earlier
      · obtain ⟨⟨v, issued, expires, -⟩, last⟩ := bounded.access k a found
        have covered := last other there
        have ends := (bounded.grants _ other there).ends
        refine ⟨⟨v, issued⟩, fun i member => ?_, Int.lt_of_lt_of_le live covered, Int.lt_of_lt_of_le live (Int.le_trans covered ends)⟩
        rw [bounded.issuedOnce k i v member issued, ← expires]
        exact live
      · exact bounded.absolute.access k other u earlier
    · simpa using bounded.absolute.refresh

theorem perform_dwindles (valid : Consistent False False w.server) {β : Type} {operation : Section β} (tokenless : operation.Tokenless) :
    w.server.store.Dwindles (w.server.perform prim call chance operation).2.store := by
  rw [(Server.perform_store operation).1]
  exact Section.dwindles valid.tidy tokenless

theorem lived_validateAccess (before after : Inner) (token resource : String) (t : Int) (value : Option AccessInfo) :
    lived prim chance before after (.validateAccess token resource t) value = [] ∨ ∃ info g, value = some info ∧
      before.grants[info.grantId]? = some g ∧
      lived prim chance before after (.validateAccess token resource t) value = [.accepted (prim.secretHash "access" token) g t] := by
  cases value with
  | none => exact .inl rfl
  | some info =>
    cases there : before.grants[info.grantId]? with
    | none => simp [lived, there]
    | some g => exact .inr ⟨info, g, rfl, there, by simp [lived, there]⟩

theorem lived_createGrant {before after : Inner} {code clientId : String} {ac : AuthCode} {auth : UserAuthority} {scopes : List String} {t : Int}
    {value : Except TokenError TokenSet} (failed : value.isOk = false) :
    lived prim chance before after (.createGrant code clientId ac auth scopes t) value = [] := by
  cases value with
  | error e => rfl
  | ok tokens => cases failed

theorem lived_rotate {before after : Inner} {grant : Grant} {auth : Option UserAuthority} {requested : Option (List String)} {t : Int}
    {value : Except TokenError TokenSet} (failed : value.isOk = false) :
    lived prim chance before after (.rotate grant auth requested t) value = [] := by
  cases value with
  | error e => rfl
  | ok tokens => cases failed

theorem Bounded.tokenless (bounded : w.Bounded) (valid : Consistent False False w.server) {β : Type} {operation : Section β}
    (tokenless : operation.Tokenless) : (w.perform prim call chance operation).2.Bounded := by
  have dwindles : w.server.store.Dwindles (w.server.perform prim call chance operation).2.store := perform_dwindles valid tokenless
  have clock := (@Server.perform_store prim call chance w.server β operation).2
  have named := fun name member => (@Server.perform_frame prim call chance w.server β operation).2 name (.inr member)
  have kept := bounded.dwindling dwindles clock named
  cases operation with
  | createGrant | rotate => exact tokenless.elim
  | validateAccess token resource t =>
    rcases @lived_validateAccess prim chance w.server.store.inner
      (w.server.perform prim call chance (.validateAccess token resource t)).2.store.inner token resource t
      (w.server.perform prim call chance (.validateAccess token resource t)).1 with none_ | ⟨info, g, answered, there, one⟩
    · unfold perform
      dsimp only
      rw [none_]
      exact kept
    · obtain ⟨found, live⟩ := OAuthStore.validateAccess_found answered
      unfold perform
      dsimp only
      rw [one]
      exact (bounded.accepting found there live).dwindling dwindles clock named
  | _ => exact kept

theorem Bounded.create (bounded : w.Bounded) (valid : Consistent False False w.server) (fresh : w.server.Fresh prim chance)
    {code clientId : String} {ac : AuthCode} {auth : UserAuthority} {scopes : List String} {t : Int} (past : t ≤ w.server.clock) :
    (w.perform prim call chance (.createGrant code clientId ac auth scopes t)).2.Bounded := by
  obtain ⟨store, clock⟩ := @Server.perform_store prim call chance w.server _ (.createGrant code clientId ac auth scopes t)
  have names := (@Server.perform_frame prim call chance w.server _ (.createGrant code clientId ac auth scopes t)).2
  have named := fun name member => names name (.inr member)
  unfold perform
  dsimp only
  rcases @OAuthStore.createGrant_places prim chance w.server.store t code clientId ac auth scopes with
    ⟨failed, same⟩ | ⟨tokens, clientName, answered, placed⟩
  · have none_ : lived prim chance w.server.store.inner (w.server.perform prim call chance (.createGrant code clientId ac auth scopes t)).2.store.inner
        (.createGrant code clientId ac auth scopes t) (w.server.perform prim call chance (.createGrant code clientId ac auth scopes t)).1 = [] :=
      lived_createGrant failed
    rw [none_]
    refine bounded.dwindling ?_ clock named
    rw [store, Section.run, same]
    exact OAuthStore.dwindles_refl
  · have there := (placed.grants (chance.randomToken "wsg_")).trans (if_pos rfl)
    have absent : ∀ g, w.server.store.inner.grants[chance.randomToken "wsg_"]? ≠ some g := by
      intro g found
      obtain ⟨first, approval, created, same, -⟩ := (valid.recorded _ g (.inl found)).born
      exact (valid.fresh_grant fresh).1 first approval created same
    have news : lived prim chance w.server.store.inner (w.server.perform prim call chance (.createGrant code clientId ac auth scopes t)).2.store.inner
        (.createGrant code clientId ac auth scopes t) (w.server.perform prim call chance (.createGrant code clientId ac auth scopes t)).1 =
        [.issued (prim.secretHash "access" (chance.randomToken "wsat_")) t,
          .extended (OAuthStore.newGrant prim clientName clientId ac auth scopes t chance)] := by
      have value : (w.server.perform prim call chance (.createGrant code clientId ac auth scopes t)).1 = .ok tokens := answered
      rw [store, value]
      simp only [lived, Section.run, there]
    rw [news]
    apply bounded.placing (store ▸ placed) clock named past
    · exact fresh _ (by simp [Chance.names])
    · exact fresh _ (by simp [Chance.names, OAuthStore.newGrant])
    · exact names _ (.inl (by simp [Chance.names]))
    · exact names _ (.inl (by simp [Chance.names, OAuthStore.newGrant]))
    · simp only [OAuthStore.newGrant, refreshTtlSecs, grantMaxLifetimeSecs]
      omega
    · simp only [OAuthStore.newGrant, accessTtlSecs, refreshTtlSecs]
      omega
    · intro k a found belongs
      obtain ⟨g, live⟩ := valid.tidy.access k a found
      rw [belongs] at live
      exact absurd live (absent g)

structure Found (grant : Grant) (t : Int) (w : Chronicle) : Prop where
  past : t ≤ w.server.clock
  live : ∃ g, .extended g ∈ w.lives ∧ g.refreshHash = grant.refreshHash ∧ t < g.refreshExpiresAt

theorem Bounded.rotate (bounded : w.Bounded) (valid : Consistent False False w.server) (exact_ : w.server.store.inner.Exact)
    (fresh : w.server.Fresh prim chance) {grant : Grant} {auth : Option UserAuthority} {requested : Option (List String)} {t : Int}
    (found : Found grant t w) (may : lastingRefresh w.server chance (.rotate grant auth requested t)) :
    (w.perform prim call chance (.rotate grant auth requested t)).2.Bounded := by
  obtain ⟨store, clock⟩ := @Server.perform_store prim call chance w.server _ (.rotate grant auth requested t)
  have names := (@Server.perform_frame prim call chance w.server _ (.rotate grant auth requested t)).2
  have named := fun name member => names name (.inr member)
  unfold perform
  dsimp only
  rcases @OAuthStore.rotate_places prim chance w.server.store t _ grant auth requested valid.tidy with
    ⟨failed, dwindles⟩ | ⟨tokens, old, answered, current, there, placed⟩
  · have none_ : lived prim chance w.server.store.inner (w.server.perform prim call chance (.rotate grant auth requested t)).2.store.inner
        (.rotate grant auth requested t) (w.server.perform prim call chance (.rotate grant auth requested t)).1 = [] := lived_rotate failed
    rw [none_]
    exact bounded.dwindling (store ▸ dwindles) clock named
  · have key : old.id = grant.id := valid.tidy.keyed _ old there
    have after := (placed.grants grant.id).trans (if_pos key.symm)
    have news : lived prim chance w.server.store.inner (w.server.perform prim call chance (.rotate grant auth requested t)).2.store.inner
        (.rotate grant auth requested t) (w.server.perform prim call chance (.rotate grant auth requested t)).1 =
        [.renewed old t, .issued (prim.secretHash "access" (chance.randomToken "wsat_")) t,
          .extended (OAuthStore.rotated old (prim.secretHash "refresh" (chance.randomToken "wsrt_")) t)] := by
      have value : (w.server.perform prim call chance (.rotate grant auth requested t)).1 = .ok tokens := answered
      rw [store, value]
      simp only [lived, Section.run, there, after]
    rw [news]
    -- The current token is the one that was found, so its grant ends when it did then.
    have live : t < old.refreshExpiresAt := by
      obtain ⟨g, indexed, hash⟩ := (exact_.refresh _ _).mp current
      rw [there] at indexed
      cases indexed
      obtain ⟨g, known, same, late⟩ := found.live
      rw [bounded.same_end (bounded.grants _ old there) known (hash.trans same.symm)]
      exact late
    have ends := (bounded.grants _ old there).ends
    obtain ⟨young, recent⟩ := may old there
    refine Bounded.renewing (w := ⟨_, _ :: _ :: w.lives⟩) ?_ live (Int.lt_of_lt_of_le live ends)
    apply bounded.placing (store ▸ placed) clock named found.past
    · exact fresh _ (by simp [Chance.names])
    · exact fresh _ (by simp [Chance.names, OAuthStore.rotated])
    · exact names _ (.inl (by simp [Chance.names]))
    · exact names _ (.inl (by simp [Chance.names, OAuthStore.rotated]))
    · exact Int.min_le_right _ _
    · refine Int.le_min.mpr ⟨?_, young⟩
      simp only [accessTtlSecs, refreshTtlSecs]
      omega
    · intro k a issued belongs
      have mine : a.grantId = grant.id := belongs.trans key
      obtain ⟨⟨u, -, expires, past⟩, last⟩ := bounded.access k a issued
      have covered := last old (mine ▸ there)
      refine Int.le_min.mpr ⟨?_, Int.le_trans covered ends⟩
      rw [expires]
      exact Int.le_trans (Int.add_le_add_right past _) recent

/-- The system, of whose states it is known that they are consistent and that their indexes are exact. -/
abbrev knownChronicle (prim : Primitives) : System Chronicle Section CallId Unit :=
  (chronicleSystem prim lastingRefresh).confined fun w => Consistent False False w.server ∧ w.server.store.Agrees w.server.clock

/-- The clock does not go back, and nothing that was taken down is forgotten. -/
def Grows (_ : CallId) (before after : Chronicle) : Prop :=
  before.server.clock ≤ after.server.clock ∧ ∀ life ∈ before.lives, life ∈ after.lives

abbrev chronicleRules (prim : Primitives) (call : CallId) : Rules Chronicle Section := (knownChronicle prim).rules Bounded Grows call

theorem perform_grows {β : Type} (operation : Section β) : Grows call w (w.perform prim call chance operation).2 :=
  ⟨Int.le_of_eq (Server.perform_store operation).2.symm, fun _ member => List.mem_append_right _ member⟩

theorem chronicled {β : Type} {operation : Section β} {value : β} {before after : Chronicle}
    (law : (knownChronicle prim).commits call before operation value after) : ∃ chance, before.server.Fresh prim chance ∧
      lastingRefresh before.server chance operation ∧ Consistent False False before.server ∧ before.server.store.inner.Exact ∧
      value = (before.server.perform prim call chance operation).1 ∧ after = (before.perform prim call chance operation).2 := by
  obtain ⟨⟨-, chance, fresh, may, done⟩, ⟨first, agrees⟩, -⟩ := law
  exact ⟨chance, fresh, may, first, agrees.indexes, congrArg Prod.fst done, congrArg Prod.snd done⟩

theorem tokenless_step {β : Type} {operation : Section β} {value : β} {before after : Chronicle} (tokenless : operation.Tokenless)
    (bounded : before.Bounded) (law : (knownChronicle prim).commits call before operation value after) :
    after.Bounded ∧ Grows call before after := by
  obtain ⟨chance, -, -, first, -, -, rfl⟩ := chronicled law
  exact ⟨bounded.tokenless first tokenless, perform_grows operation⟩

structure Lasts (fact : Chronicle → Prop) : Prop where
  lasts : ∀ before after, Grows (0, 0) before after → fact before → fact after

theorem Lasts.stable {fact : Chronicle → Prop} (lasts : Lasts fact) : (chronicleRules prim call).Stable fact := by
  rintro before after - - (⟨⟨clock, later, rfl⟩ | rfl, -⟩ | ⟨other, -, grows⟩) held
  · exact lasts.lasts before _ ⟨later, fun _ member => member⟩ held
  · exact lasts.lasts before _ ⟨Int.le_refl _, fun _ member => member⟩ held
  · exact lasts.lasts before after grows held

theorem always_lasts : Lasts fun _ => True := ⟨fun _ _ _ _ => trivial⟩

theorem past_lasts (t : Int) : Lasts fun w => t ≤ w.server.clock := ⟨fun _ _ grows past => Int.le_trans past grows.1⟩

theorem found_lasts (grant : Grant) (t : Int) : Lasts (Found grant t) :=
  ⟨fun _ _ grows found => ⟨Int.le_trans found.past grows.1, found.live.imp fun _ live => ⟨grows.2 _ live.1, live.2⟩⟩⟩

theorem ends_chronicle {fact : Chronicle → Prop} (lasts : Lasts fact) :
    (chronicleRules prim call).Triple fact (.pure ()) fun _ _ => True := .pure () lasts.stable fun _ _ _ => trivial

theorem tokenlessTriple {program : Program Section Unit} (tokenless : program.Yields (fun operation => operation.Tokenless) fun _ => True) :
    (chronicleRules prim call).Triple (fun _ => True) program fun _ _ => True := by
  refine (Rules.Triple.yields tokenless always_lasts.stable ?_).weaken_post fun _ _ _ _ => trivial
  intro before β operation value after bounded _ tokenless law
  obtain ⟨kept, grows⟩ := tokenless_step tokenless bounded law
  exact ⟨kept, grows, trivial⟩

theorem passes {fact : Chronicle → Prop} (lasts : Lasts fact) {β : Type} {operation : Section β} {next : β → Program Section Unit}
    (tokenless : operation.Tokenless) (rest : ∀ value, (chronicleRules prim call).Triple fact (next value) fun _ _ => True) :
    (chronicleRules prim call).Triple fact (.request operation next) fun _ _ => True := by
  apply Rules.Triple.leading (fun _ => fact) lasts.stable
  · intro before value after bounded held law
    obtain ⟨kept, grows⟩ := tokenless_step tokenless bounded law
    exact ⟨kept, grows, lasts.lasts before after grows held⟩
  · exact rest

theorem reads {next : Int → Program Section Unit}
    (rest : ∀ t, (chronicleRules prim call).Triple (fun w => t ≤ w.server.clock) (next t) fun _ _ => True) :
    (chronicleRules prim call).Triple (fun _ => True) (.request .now next) fun _ _ => True := by
  apply Rules.Triple.leading (fun t w => t ≤ w.server.clock) always_lasts.stable
  · intro before value after bounded _ law
    have tokenless : Section.now.Tokenless := trivial
    obtain ⟨kept, grows⟩ := tokenless_step tokenless bounded law
    obtain ⟨chance, -, -, -, -, rfl, -⟩ := chronicled law
    exact ⟨kept, grows, grows.1⟩
  · exact rest

theorem finds {refreshToken clientId : String} {resource : Option String} {t : Int} {value : Except TokenError Grant} {before after : Chronicle}
    (bounded : before.Bounded) (past : t ≤ before.server.clock)
    (law : (knownChronicle prim).commits call before (.findGrant refreshToken clientId resource t) value after) :
    ∀ grant, value = .ok grant → Found grant t after := by
  have tokenless : (Section.findGrant refreshToken clientId resource t).Tokenless := trivial
  obtain ⟨-, grows⟩ := tokenless_step tokenless bounded law
  obtain ⟨chance, -, -, first, -, answered, -⟩ := chronicled law
  rintro grant rfl
  obtain ⟨id, there⟩ := OAuthStore.findGrant_found answered.symm
  obtain ⟨held, late⟩ := first.pruned_late there
  obtain ⟨u, known⟩ := (bounded.grants id grant held).known
  exact ⟨Int.le_trans past grows.1, _, grows.2 _ known, rfl, late⟩

theorem exchangeTriple (code clientId redirectUri codeVerifier : String) (resource : Option String) :
    (chronicleRules prim call).Triple (fun _ => True) ((exchangeCode code clientId redirectUri codeVerifier resource).bind fun _ => .pure ())
      fun _ _ => True := by
  apply reads
  intro t
  refine passes (past_lasts t) trivial fun found => ?_
  cases found with
  | error e => exact ends_chronicle (past_lasts t)
  | ok ac =>
    refine passes (past_lasts t) trivial fun auth => ?_
    cases auth with
    | none => exact ends_chronicle (past_lasts t)
    | some auth =>
      dsimp only [Program.pure_bind]
      split
      · exact ends_chronicle (past_lasts t)
      · apply Rules.Triple.leading (fun _ _ => True) (past_lasts t).stable
        · intro before value after bounded past law
          obtain ⟨chance, fresh, -, first, -, -, rfl⟩ := chronicled law
          exact ⟨bounded.create first fresh past, perform_grows _, trivial⟩
        · exact fun _ => ends_chronicle always_lasts

theorem refreshTriple (refreshToken clientId : String) (resource : Option String) (requested : Option (List String)) :
    (chronicleRules prim call).Triple (fun _ => True) ((refresh refreshToken clientId resource requested).bind fun _ => .pure ())
      fun _ _ => True := by
  apply reads
  intro t
  apply Rules.Triple.leading (fun found w => ∀ grant, found = .ok grant → Found grant t w) (past_lasts t).stable
  · intro before value after bounded past law
    have tokenless : (Section.findGrant refreshToken clientId resource t).Tokenless := trivial
    obtain ⟨kept, grows⟩ := tokenless_step tokenless bounded law
    exact ⟨kept, grows, finds bounded past law⟩
  intro found
  cases found with
  | error e => exact (ends_chronicle always_lasts).weaken fun _ _ _ => trivial
  | ok grant =>
    refine Rules.Triple.weaken ?_ fun w _ held => held grant rfl
    refine passes (found_lasts grant t) trivial fun auth => ?_
    apply Rules.Triple.leading (fun _ _ => True) (found_lasts grant t).stable
    · intro before value after bounded found law
      obtain ⟨chance, fresh, may, first, exact_, -, rfl⟩ := chronicled law
      exact ⟨bounded.rotate first exact_ fresh found may, perform_grows _, trivial⟩
    · exact fun _ => ends_chronicle always_lasts

theorem chronicleTriple {program : Program Section Unit} (made : Call prim program) :
    (chronicleRules prim call).Triple (fun _ => True) program fun _ _ => True := by
  cases made with
  | @single β operation single =>
    apply tokenlessTriple
    refine ⟨?_, fun _ => trivial⟩
    cases operation <;> trivial
  | register clientName redirectUris source =>
    unfold registerClient
    split
    · exact ends_chronicle always_lasts
    · split
      · exact ends_chronicle always_lasts
      · split
        · exact ends_chronicle always_lasts
        · exact tokenlessTriple ⟨trivial, fun _ => ⟨trivial, fun _ => trivial⟩⟩
  | approve id username source granted =>
    apply tokenlessTriple
    refine ⟨trivial, fun taken => ?_⟩
    cases taken with
    | none => trivial
    | some p => exact ⟨trivial, fun _ => ⟨trivial, fun _ => trivial⟩⟩
  | exchange code clientId redirectUri codeVerifier resource => exact exchangeTriple code clientId redirectUri codeVerifier resource
  | refresh refreshToken clientId resource requested => exact refreshTriple refreshToken clientId resource requested
  | validate token resource => exact tokenlessTriple ⟨trivial, fun _ => ⟨trivial, fun _ => trivial⟩⟩

theorem server_reached (reached : (chronicleSystem prim permitted).Reaches New w) :
    (serverSystem prim permitted).Reaches Server.New w.server := by
  obtain ⟨config, ⟨start, ⟨begun, new, rfl⟩, run⟩, same⟩ := System.Reaches.image (serverSystem prim permitted)
    Chronicle.server reached (by
      rintro before after (⟨clock, later, rfl⟩ | rfl)
      · exact .inl ⟨clock, later, rfl⟩
      · exact .inr rfl) (fun _ _ made => made) (by
      intro call β before operation value after law
      obtain ⟨current, chance, fresh, may, done⟩ := law
      obtain rfl : after = (before.perform prim call chance operation).2 := congrArg Prod.snd done
      have answered : value = (before.perform prim call chance operation).1 := congrArg Prod.fst done
      exact ⟨current, chance, fresh, may, Prod.ext answered rfl⟩) fun _ _ impossible => impossible
  exact ⟨config, ⟨begun.server, new.server, run⟩, same⟩

theorem bounded_run (reached : (chronicleSystem prim lastingRefresh).Reaches New w) : w.Bounded := by
  have known : ∀ w, (chronicleSystem prim lastingRefresh).Reaches New w →
      Consistent False False w.server ∧ w.server.store.Agrees w.server.clock := fun w reached =>
    ⟨Server.consistent_run (fun _ _ _ _ _ => ⟨False.elim, False.elim⟩) (server_reached reached), Server.agrees_run (server_reached reached)⟩
  have sound : (knownChronicle prim).Sound New Bounded Grows fun _ _ => True := by
    constructor
    · exact fun w new => ⟨new.bounded, fun _ => trivial⟩
    · rintro before after bounded ⟨⟨clock, later, rfl⟩ | rfl, -, -⟩
      · exact ⟨bounded.wait later, fun _ _ => trivial⟩
      · exact ⟨bounded.restart, fun _ _ => trivial⟩
    · exact fun _ _ _ _ _ _ _ _ _ => trivial
    · exact fun call program made => chronicleTriple made
    · exact fun _ _ _ _ => trivial
  exact sound.reaches (reached.confined known)

end Chronicle

theorem lifetimes_are_absolute {w : Chronicle} (reached : (chronicleSystem prim lastingRefresh).Reaches Chronicle.New w) : Absolute w.lives :=
  (Chronicle.bounded_run reached).absolute

abbrev ChronicleTurn := Turn Chronicle Section CallId Unit

def Chronicle.serve (allowed : Server → Chance → {β : Type} → Section β → Bool) (call : CallId) (index : Nat) {β : Type} (w : Chronicle)
    (operation : Section β) : Option (Chronicle × β) :=
  let chance := chanceAt index
  if w.server.boot = call.1 ∧ (∀ name ∈ chance.names samplePrimitives, name ∉ w.server.named) ∧ allowed w.server chance operation = true then
    some (w.perform samplePrimitives call chance operation).swap
  else none

theorem chronicle_commits {allowed : Server → Chance → {β : Type} → Section β → Bool}
    (checked : ∀ s chance {β : Type} (operation : Section β), allowed s chance operation = true → permitted s chance operation)
    (call : CallId) (index : Nat) {β : Type} (w : Chronicle) (operation : Section β) (after : Chronicle) (value : β)
    (served : Chronicle.serve allowed call index w operation = some (after, value)) :
    (chronicleSystem samplePrimitives permitted).commits call w operation value after := by
  simp only [Chronicle.serve] at served
  split at served
  · rename_i may
    obtain ⟨current, fresh, allowed⟩ := may
    refine ⟨current, chanceAt index, fresh, checked w.server _ operation allowed, ?_⟩
    exact (Prod.swap_eq_iff_eq_swap.mp (Option.some.inj served)).symm
  · cases served

def newChronicle : Chronicle := ⟨newServer, []⟩

theorem newChronicle_new : newChronicle.New := ⟨newServer_new, rfl⟩

def grants : List ChronicleTurn :=
  Turn.whole (0, 0) ((registerClient samplePrimitives (some "Agent") ["https://app.example.com/cb"] "198.51.100.1").bind fun _ => .pure ()) 2 ++
    Turn.whole (0, 0) (.request (.beginPending ⟨"wsc_1", "Agent", "https://app.example.com/cb", none, sampleVerifier, ["read"],
      "https://ws.example.com/mcp", 0, "198.51.100.1"⟩) fun _ => .pure ()) 1 ++
    Turn.whole (0, 0) ((approve "wsp_2" "paul" .wolfStack ["read"]).bind fun _ => .pure ()) 3 ++
    Turn.whole (0, 0) ((exchangeCode "wsa_5" "wsc_1" "https://app.example.com/cb" sampleVerifier none).bind fun _ => .pure ()) 4

def renews (seconds : Nat) (refreshToken : String) : List ChronicleTurn :=
  [.move fun w => some { w with server := { w.server with clock := w.server.clock + seconds } }] ++
    Turn.whole (0, 0) ((refresh refreshToken "wsc_1" none none).bind fun _ => .pure ()) 4

def uses (seconds : Nat) (token : String) : List ChronicleTurn :=
  [.move fun w => some { w with server := { w.server with clock := w.server.clock + seconds } }] ++
    Turn.whole (0, 0) ((validateAccess token "https://ws.example.com/mcp").bind fun _ => .pure ()) 2

def day : Nat := 24 * 3600

def renewedAtTheEnd : List ChronicleTurn :=
  grants ++ renews (30 * day - 1) "wsrt_9" ++ renews (30 * day - 1) "wsrt_13" ++ renews (30 * day - 1) "wsrt_17" ++ uses 120 "wsat_21"

def renewedEarly : List ChronicleTurn := grants ++ renews day "wsrt_9" ++ uses 120 "wsat_13"

theorem passing_lawful (seconds : Nat) :
    (Turn.move fun w => some { w with server := { w.server with clock := w.server.clock + seconds } } : ChronicleTurn).Lawful
      (chronicleSystem samplePrimitives permitted) := by
  rintro before after ⟨⟩
  exact .inl ⟨_, Int.le_add_of_nonneg_right (Int.natCast_nonneg seconds), rfl⟩

theorem renews_lawful (seconds : Nat) (token : String) :
    ∀ turn ∈ renews seconds token, turn.Lawful (chronicleSystem samplePrimitives permitted) := by
  rw [renews, List.forall_mem_append, List.forall_mem_singleton]
  refine ⟨passing_lawful seconds, ?_⟩
  simp [Turn.whole, Turn.Lawful, chronicleSystem, Call.refresh]

theorem uses_lawful (seconds : Nat) (token : String) :
    ∀ turn ∈ uses seconds token, turn.Lawful (chronicleSystem samplePrimitives permitted) := by
  rw [uses, List.forall_mem_append, List.forall_mem_singleton]
  refine ⟨passing_lawful seconds, ?_⟩
  simp [Turn.whole, Turn.Lawful, chronicleSystem, Call.validate]

theorem grants_lawful : ∀ turn ∈ grants, turn.Lawful (chronicleSystem samplePrimitives permitted) := by
  have begun : ∀ p, Call samplePrimitives (.request (Section.beginPending p) fun _ => .pure ()) := fun p => .single trivial
  simp [grants, Turn.whole, Turn.Lawful, chronicleSystem, begun, Call.register, Call.approve, Call.exchange]

theorem renewedAtTheEnd_lawful : ∀ turn ∈ renewedAtTheEnd, turn.Lawful (chronicleSystem samplePrimitives permitted) := by
  simp only [renewedAtTheEnd, List.forall_mem_append]
  exact ⟨⟨⟨⟨grants_lawful, renews_lawful _ _⟩, renews_lawful _ _⟩, renews_lawful _ _⟩, uses_lawful _ _⟩

theorem renewedEarly_lawful : ∀ turn ∈ renewedEarly, turn.Lawful (chronicleSystem samplePrimitives permitted) := by
  simp only [renewedEarly, List.forall_mem_append]
  exact ⟨⟨grants_lawful, renews_lawful _ _⟩, uses_lawful _ _⟩

def lastingNow (s : Server) (_ : Chance) : {β : Type} → Section β → Bool
  | _, .rotate grant _ _ t => s.store.inner.grants[grant.id]?.all fun g =>
    t + accessTtlSecs ≤ g.createdAt + grantMaxLifetimeSecs && s.clock + accessTtlSecs ≤ t + refreshTtlSecs
  | _, _ => true

theorem lastingNow_checked (s : Server) (chance : Chance) {β : Type} (operation : Section β) (may : lastingNow s chance operation = true) :
    lastingRefresh s chance operation := by
  cases operation with
  | rotate grant auth requested t =>
    intro g there
    simpa [lastingNow, there] using may
  | _ => trivial

def acceptedAfterRefresh : List Life → Bool
  | .accepted _ _ _ :: .renewed _ _ :: _ => true
  | _ => false

theorem lifetimes_are_absolute_sample : ∃ w : Chronicle, (chronicleSystem samplePrimitives lastingRefresh).Reaches Chronicle.New w ∧
    acceptedAfterRefresh w.lives = true ∧ Absolute w.lives := by
  obtain ⟨w, reached, passed⟩ := @conduct_reaches _ _ _ _ _ (chronicleSystem samplePrimitives lastingRefresh)
    (Chronicle.serve fun s chance _ operation => lastingNow s chance operation) Chronicle.New newChronicle newChronicle_new
    (chronicle_commits lastingNow_checked) renewedEarly renewedEarly_lawful (fun w => acceptedAfterRefresh w.lives) (by decide +kernel)
  exact ⟨w, reached, passed, lifetimes_are_absolute reached⟩

def acceptedLate : List Life → Bool
  | .accepted _ g t :: _ => g.refreshExpiresAt ≤ t && g.createdAt + grantMaxLifetimeSecs ≤ t
  | _ => false

theorem acceptedLate_wrong {lives : List Life} (late : acceptedLate lives = true) : ¬Absolute lives := by
  unfold acceptedLate at late
  split at late
  · rename_i h g t earlier
    simp only [Bool.and_eq_true, decide_eq_true_eq] at late
    intro absolute
    obtain ⟨-, -, live, -⟩ := absolute.access h g t List.mem_cons_self
    omega
  · cases late

theorem access_outlives_grant : ¬∀ w : Chronicle, (chronicleSystem samplePrimitives fun _ _ _ _ => True).Reaches Chronicle.New w →
    Absolute w.lives := by
  intro absolute
  obtain ⟨w, reached, passed⟩ := @conduct_reaches _ _ _ _ _ (chronicleSystem samplePrimitives fun _ _ _ _ => True)
    (Chronicle.serve fun _ _ _ _ => true) Chronicle.New newChronicle newChronicle_new (chronicle_commits fun _ _ _ _ _ => trivial)
    renewedAtTheEnd renewedAtTheEnd_lawful (fun w => acceptedLate w.lives) (by decide +kernel)
  exact acceptedLate_wrong passed (absolute w reached)

end Mcp
