import WolfStack.Mcp.Sections

/-! Every section keeps the invariant, and what the other calls count on. -/

namespace Mcp
open Effects
open Std (TreeMap)
attribute [local irreducible] Inner.prune

variable {settle detect : Prop} {prim : Primitives} {s : Server} {call : CallId} {chance : Chance}

namespace Server

/-- No approval is under way, as a code or in the hands of a call, when those of a user are to end. -/
def Unclaimed (s : Server) : {β : Type} → Section β → Prop
  | _, .revokeUser username => (∀ c ∈ values s.store.inner.codes, c.username ≠ username) ∧ ∀ entry ∈ s.carried, entry.username ≠ username
  | _, .revokeAll => values s.store.inner.codes = [] ∧ s.carried = []
  | _, _ => True

/-- A token that was retired comes back to a grant that remembers it, and within the grace
period to one that has not been rotated since. -/
def Remembered (prim : Primitives) (s : Server) (chance : Chance) : {β : Type} → Section β → Prop
  | _, .findGrant refreshToken _ _ t =>
    let h := prim.secretHash "refresh" refreshToken
    ∀ id r, .rotated id h r ∈ s.log → ∀ g, (s.store.inner.prune t).grants[id]? = some g →
      if t - r ≤ refreshRetryGraceSecs then g.retiredRefreshHashes.getLast? = some h
      else h ∈ g.retiredRefreshHashes ∧ chance.written.isOk = true
  | _, _ => True

def Permits (settle detect : Prop) (prim : Primitives) (s : Server) (chance : Chance) {β : Type} (operation : Section β) : Prop :=
  (settle → s.Unclaimed operation) ∧ (detect → s.Remembered prim chance operation)

structure Reads (s : Server) (t : Int) : Prop where
  since : s.started ≤ t
  past : t ≤ s.clock

end Server

namespace Consistent

theorem quiet_step (valid : Consistent settle detect s) {t : Int} {store : OAuthStore} (past : t ≤ s.clock)
    (quiet : Quiet s.owners t s.store store) (names : List String) :
    Advance settle detect call s { s with store, named := names ++ s.named } := by
  have first : Advance settle detect call s { s with named := names ++ s.named } := valid.naming names
  exact first.trans (first.valid.quiet past quiet)

theorem fresh_grant (valid : Consistent settle detect s) (fresh : s.Fresh prim chance) :
    (∀ g approval, .created g approval ∈ s.log → g.id ≠ chance.randomToken "wsg_") ∧ ¬Closed detect s.log (chance.randomToken "wsg_") := by
  have new : chance.randomToken "wsg_" ∉ s.named := fresh _ (by simp [Chance.names])
  constructor
  · intro g approval created same
    exact new (same ▸ valid.named g approval created)
  · intro closed
    exact new (valid.closed_named (fun _ there => there) closed)

theorem fresh_hash (valid : Consistent settle detect s) (fresh : s.Fresh prim chance) :
    s.owners (prim.secretHash "refresh" (chance.randomToken "wsrt_")) = none := by
  have new : prim.secretHash "refresh" (chance.randomToken "wsrt_") ∉ s.named := fresh _ (by simp [Chance.names])
  cases owner : s.owners (prim.secretHash "refresh" (chance.randomToken "wsrt_")) with
  | none => rfl
  | some id => exact absurd (valid.ownersNamed _ id owner).1 new

theorem fresh_code (valid : Consistent settle detect s) (fresh : s.Fresh prim chance) (c : AuthCode) :
    s.store.inner.codes[prim.secretHash "code" (chance.randomToken "wsa_")]? ≠ some c := by
  have new : prim.secretHash "code" (chance.randomToken "wsa_") ∉ s.named := fresh _ (by simp [Chance.names])
  intro found
  exact new (valid.codes _ c found).1

theorem fresh_client (valid : Consistent settle detect s) (fresh : s.Fresh prim chance) :
    .revoked (.client (chance.randomToken "wsc_")) ∉ s.log := by
  have new : chance.randomToken "wsc_" ∉ s.named := fresh _ (by simp [Chance.names])
  exact fun revoked => new (valid.barred _ revoked).1

theorem commit_cases {ε ρ : Type} (store : OAuthStore) (chance : Chance) (failed : String → ε) (f : Inner → Except ε (ρ × Inner)) :
    (∃ e, store.commit chance failed f = (.error e, store)) ∨
      ∃ r draft, f store.inner = .ok (r, draft) ∧ store.commit chance failed f = (.ok r, ⟨draft, draft.snapshot⟩) := by
  unfold OAuthStore.commit
  split
  · rename_i e _
    exact .inl ⟨e, rfl⟩
  · rename_i r draft drafted
    split
    · rename_i e _
      exact .inl ⟨failed e, rfl⟩
    · exact .inr ⟨r, draft, drafted, rfl⟩

theorem register_step (valid : Consistent settle detect s) (fresh : s.Fresh prim chance) {t : Int} (reads : s.Reads t)
    (clientName : Option String) (redirectUris : List String) (source : String) :
    Advance settle detect call s (s.perform prim call chance (.registerClient clientName redirectUris source t)).2 := by
  have tidy := Inner.prune_tidy t valid.tidy
  have keeps := Inner.prune_keeps t valid.tidy
  rw [show (s.perform prim call chance (.registerClient clientName redirectUris source t)).2 = { s with
    store := (s.store.registerClient clientName redirectUris source t chance).2
    named := chance.names prim ++ s.named } from rfl]
  unfold OAuthStore.registerClient
  rcases commit_cases (s.store.pruned t) chance id _ with ⟨e, done⟩ | ⟨r, draft, drafted, done⟩
  · rw [done]
    exact valid.quiet_step reads.past (OAuthStore.pruned_quiet valid.tidy) _
  · rw [done]
    dsimp only at drafted
    split at drafted
    · cases drafted
    · rename_i room found
      cases drafted
      have kept : Inner.Keeps (fun _ => True) (s.store.inner.prune t) room ∧ room.Tidy s.owners := by
        split at found
        · obtain ⟨victim, -, rfl⟩ := Option.map_eq_some_iff.mp found
          exact ⟨.same rfl (fun _ _ there => there) (fun _ _ there => there) fun k c there => ⟨c, OAuthStore.erase_get there, rfl⟩,
            tidy.same rfl rfl fun _ _ there => there⟩
        · cases found
          exact ⟨.refl _, tidy⟩
      have written : Quiet s.owners t s.store ⟨room, room.snapshot⟩ := ⟨_, keeps, tidy, .inr ⟨kept.1, kept.2, rfl⟩⟩
      have first : Advance settle detect call s _ := valid.quiet_step reads.past written (chance.names prim)
      have named := valid.fresh_client fresh
      exact first.trans (first.valid.register (c := OAuthStore.newClient clientName redirectUris source t chance) named rfl)

theorem approveClient_keeps (clientId : String) (t : Int) (d : Inner) :
    Inner.Keeps (fun _ => True) d (OAuthStore.approveClient clientId t d) := by
  unfold OAuthStore.approveClient
  split
  · exact .refl d
  · rename_i c there
    refine .same rfl (fun _ _ found => found) (fun _ _ found => found) fun k other found => ?_
    rw [Inner.insert_get] at found
    split at found
    · rename_i same
      cases found
      exact ⟨c, same ▸ there, rfl⟩
    · exact ⟨other, found, rfl⟩

theorem approveClient_tidy (clientId : String) (t : Int) {d : Inner} {owners : String → Option String} (tidy : d.Tidy owners) :
    (OAuthStore.approveClient clientId t d).Tidy owners := by
  unfold OAuthStore.approveClient
  split
  · exact tidy
  · exact tidy.same rfl rfl fun _ _ found => found

theorem approvalOf_approved (valid : Consistent settle detect s) {username : String} {approval : Nat}
    (holds : s.holding call = some ⟨call, username, approval⟩) (settles : settle) : Approved s.log username (s.approvalOf call) := by
  have there := List.mem_of_find?_eq_some holds
  rw [Server.approvalOf, holds]
  exact valid.carried settles _ there

theorem issue_step (valid : Consistent settle detect s) (fresh : s.Fresh prim chance) {t : Int} (reads : s.Reads t)
    {p : PendingAuth} {username : String} {source : AuthSource} {granted : List String} {approval : Nat}
    (holds : s.holding call = some ⟨call, username, approval⟩) :
    Advance settle detect call s (s.perform prim call chance (.issueCode p username source granted t)).2 := by
  have tidy := Inner.prune_tidy t valid.tidy
  have keeps := Inner.prune_keeps t valid.tidy
  have refused : Advance settle detect call s { s with
      store := s.store.pruned t
      named := chance.names prim ++ s.named
      carried := s.drop call } := by
    have first : Advance settle detect call s _ := valid.quiet_step reads.past (OAuthStore.pruned_quiet valid.tidy) (chance.names prim)
    exact first.trans first.valid.dropping
  unfold Server.perform Section.run OAuthStore.issueCode
  dsimp only
  split
  · exact refused
  · rcases commit_cases (s.store.pruned t) chance id _ with ⟨e, done⟩ | ⟨r, draft, drafted, done⟩
    · rw [done]
      exact refused
    · rw [done]
      cases drafted
      have written : Quiet s.owners t s.store ⟨OAuthStore.approveClient p.clientId t (s.store.inner.prune t),
          (OAuthStore.approveClient p.clientId t (s.store.inner.prune t)).snapshot⟩ :=
        ⟨_, keeps, tidy, .inr ⟨approveClient_keeps p.clientId t _, approveClient_tidy p.clientId t tidy, rfl⟩⟩
      have first : Advance settle detect call s _ := valid.quiet_step reads.past written (chance.names prim)
      have absent := fun c found => valid.fresh_code fresh c (written.keeps.codes _ c found)
      have second := first.trans (first.valid.approving (s.approvalOf call) absent)
      have third := second.trans (second.valid.issue (h := prim.secretHash "code" (chance.randomToken "wsa_"))
        (c := ⟨p.clientId, p.redirectUri, p.codeChallenge, normalizeScopes granted, p.resource, username, source, t + codeTtlSecs⟩)
        (by simp [Chance.names]) (fun settles => by
          simp only [Function.update_self]
          exact valid.approvalOf_approved holds settles))
      exact third.trans third.valid.dropping

theorem take_step (valid : Consistent settle detect s) (id : String) (approver : Option String) :
    Advance settle detect call s (s.perform prim call chance (.takePending id approver)).2 ∧
      ∀ p username, (s.perform prim call chance (.takePending id approver)).1 = some p → approver = some username →
        ∃ approval, (s.perform prim call chance (.takePending id approver)).2.holding call = some ⟨call, username, approval⟩ := by
  have first : Advance settle detect call s _ :=
    valid.quiet_step (Int.le_refl _) (OAuthStore.takePending_quiet valid.tidy id) (chance.names prim)
  unfold Server.perform Section.run Server.record
  dsimp only
  split
  · rename_i username taken _
    have logged := first.trans (first.valid.logs_plain .approved trivial (fun _ closing => closing)
      (fun _ same => by cases same) (fun _ _ same => by cases same) (fun _ _ _ same => by cases same))
    refine ⟨logged.trans (logged.valid.carrying fun _ => approved_now _ _ (Nat.le_refl _)), ?_⟩
    rintro p other - ⟨⟩
    exact ⟨_, List.find?_cons_of_pos (by simp)⟩
  · rename_i none_
    refine ⟨first, fun p username taken same => ?_⟩
    exact absurd same (none_ p username taken)

theorem consumeCode_ok {store : OAuthStore} {code clientId redirectUri codeVerifier : String} {resource : Option String} {t : Int}
    {ac : AuthCode} (ok : (OAuthStore.consumeCode prim store code clientId redirectUri codeVerifier resource t chance).1 = .ok ac) :
    (store.inner.prune t).codes[prim.secretHash "code" code]? = some ac := by
  unfold OAuthStore.consumeCode at ok
  dsimp only at ok
  split at ok
  · split at ok <;> cases ok
  · rename_i found there
    split at ok
    · cases ok
    · split at ok
      · cases ok
      · split at ok
        · cases ok
        · split at ok
          · cases ok
          · cases ok
            exact there

theorem consume_step (valid : Consistent settle detect s) {t : Int} (reads : s.Reads t) (code clientId redirectUri codeVerifier : String)
    (resource : Option String) :
    Advance settle detect call s (s.perform prim call chance (.consumeCode code clientId redirectUri codeVerifier resource t)).2 ∧
      ∀ ac, (s.perform prim call chance (.consumeCode code clientId redirectUri codeVerifier resource t)).1 = .ok ac →
        ∃ approval, (s.perform prim call chance (.consumeCode code clientId redirectUri codeVerifier resource t)).2.holding call =
          some ⟨call, ac.username, approval⟩ := by
  have quiet : Quiet s.owners t s.store (OAuthStore.consumeCode prim s.store code clientId redirectUri codeVerifier resource t chance).2 :=
    OAuthStore.consumeCode_quiet valid.tidy code clientId redirectUri codeVerifier resource
  have first : Advance settle detect call s _ := valid.quiet_step reads.past quiet (chance.names prim)
  unfold Server.perform Section.run Server.record
  dsimp only
  split
  · rename_i e failed
    refine ⟨first, fun ac ok => ?_⟩
    rw [failed] at ok
    cases ok
  · rename_i ac done
    have found := (Inner.prune_keeps t valid.tidy).codes _ ac (consumeCode_ok done)
    refine ⟨first.trans (first.valid.carrying (valid.codes _ ac found).2), fun other ok => ?_⟩
    rw [done] at ok
    cases ok
    exact ⟨_, List.find?_cons_of_pos (by simp)⟩

theorem authority_step (valid : Consistent settle detect s) (username : String) (source : AuthSource) (wanted : List String) :
    Advance settle detect call s (s.perform prim call chance (.authority username source wanted)).2 ∧
      ∀ auth, (s.perform prim call chance (.authority username source wanted)).1 = some auth →
        (∃ scope ∈ wanted, auth.allowedScopes.contains scope = true) →
          (s.perform prim call chance (.authority username source wanted)).2.holding call = s.holding call := by
  have first : Advance settle detect call s _ :=
    valid.quiet_step (Int.le_refl _) (OAuthStore.still_quiet valid.tidy) (chance.names prim)
  unfold Server.perform Section.run Server.record
  dsimp only
  split
  · exact ⟨first, fun _ _ _ => rfl⟩
  · rename_i useless
    refine ⟨first.trans first.valid.dropping, ?_⟩
    rintro auth found ⟨scope, among, allowed⟩
    exfalso
    apply useless
    rw [found]
    exact List.any_eq_true.mpr ⟨scope, among, allowed⟩

theorem created_unique {log : List Event} (lawful : Lawful settle detect log) {g other : Grant} {a b : Nat}
    (first : .created g a ∈ log) (second : .created other b ∈ log) (same : g.id = other.id) : g = other := by
  induction log with
  | nil => cases first
  | cons event earlier ih =>
    obtain ⟨allowed, rest⟩ := lawful
    rcases List.mem_cons.mp first with rfl | before_
    · rcases List.mem_cons.mp second with here | later
      · injection here with alike
        exact alike.symm
      · exact absurd same.symm (allowed.1 other b later)
    · rcases List.mem_cons.mp second with rfl | later
      · exact absurd same (allowed.1 g a before_)
      · exact ih rest before_ later

structure Begets (d draft : Inner) (g : Grant) : Prop where
  grants : ∀ k : String, draft.grants[k]? = if k = g.id then some g else d.grants[k]?
  clients : draft.clients = d.clients
  codes : draft.codes = d.codes
  retired : draft.retiredIndex = d.retiredIndex
  access : ∀ (h : String) a, draft.access[h]? = some a → d.access[h]? = some a ∨ a.grantId = g.id

theorem Begets.tidy {d draft : Inner} {g : Grant} {owners : String → Option String} (begets : Begets d draft g) (tidy : d.Tidy owners)
    (young : g.retiredRefreshHashes = []) (mine : owners g.refreshHash = some g.id) : draft.Tidy owners := by
  have others : ∀ (k : String) other, draft.grants[k]? = some other → (k = g.id ∧ other = g) ∨ d.grants[k]? = some other := by
    intro k other found
    rw [begets.grants] at found
    split at found
    · rename_i same
      cases found
      exact .inl ⟨same, rfl⟩
    · exact .inr found
  constructor
  · intro k other found
    rcases others k other found with ⟨rfl, rfl⟩ | there
    · rfl
    · exact tidy.keyed k other there
  · intro h a found
    rw [begets.grants]
    split
    · exact ⟨g, rfl⟩
    · rename_i apart
      rcases begets.access h a found with there | same
      · exact tidy.access h a there
      · exact absurd same apart
  · intro k other found h among
    rcases others k other found with ⟨rfl, rfl⟩ | there
    · rw [young, List.mem_singleton] at among
      rw [among]
      exact mine
    · exact tidy.owned k other there h among
  · intro k other found h among
    rcases others k other found with ⟨rfl, rfl⟩ | there
    · rw [young] at among
      cases among
    · rw [begets.retired]
      exact tidy.retired k other there h among

theorem beget (valid : Consistent settle detect s) {g : Grant} {draft : Inner} {approval : Nat} (begets : Begets s.store.inner draft g)
    (allowed : Allowed settle detect s.log (.created g approval)) (live : ¬Closed detect s.log g.id) (young : g.retiredRefreshHashes = [])
    (free : s.owners g.refreshHash = none) (hash : g.refreshHash ∈ s.named) (name : g.id ∈ s.named) :
    Advance settle detect call s { s with
      store := ⟨draft, draft.snapshot⟩
      log := .created g approval :: s.log
      owners := Function.update s.owners g.refreshHash (some g.id) } := by
  have logged : Advance settle detect call s { s with log := .created g approval :: s.log } :=
    valid.logs (.created g approval) allowed (fun _ closing => closing.elim) (fun _ _ same => by cases same) (fun _ same => by cases same)
      (fun _ _ same => by cases same; exact name) (fun _ _ _ same => by cases same)
  have owned : Advance settle detect call s { s with
      log := .created g approval :: s.log
      owners := Function.update s.owners g.refreshHash (some g.id) } := logged.trans (logged.valid.owning free hash name)
  have recorded : Recorded (.created g approval :: s.log) g.id g := by
    refine ⟨⟨g, approval, List.mem_cons_self, rfl, rfl, rfl⟩, fun other t rotated => ?_, fun h last => ?_⟩
    · have before := valid.rotatedOwned other g.refreshHash t ((List.mem_cons.mp rotated).resolve_left fun same => by cases same)
      rw [free] at before
      cases before
    · rw [young] at last
      cases last
  have open_ : ¬Closed detect (.created g approval :: s.log) g.id := fun closed => live (closed.resolve_left fun closing => closing)
  exact owned.trans (owned.valid.place [] begets.grants (begets.tidy owned.valid.tidy young (Function.update_self _ _ _))
    begets.clients begets.codes begets.access open_ recorded (.inl rfl))

theorem create_step (valid : Consistent settle detect s) (fresh : s.Fresh prim chance) {code clientId : String} {ac : AuthCode}
    {auth : UserAuthority} {scopes : List String} {t : Int} {approval : Nat}
    (holds : s.holding call = some ⟨call, ac.username, approval⟩) :
    Advance settle detect call s (s.perform prim call chance (.createGrant code clientId ac auth scopes t)).2 := by
  have first : Advance settle detect call s { s with named := chance.names prim ++ s.named } := valid.naming _
  have refused := first.trans first.valid.dropping
  unfold Server.perform Section.run OAuthStore.createGrant
  dsimp only
  split
  · exact refused
  · rename_i c registered
    split
    · exact refused
    · split
      · exact refused
      · rcases commit_cases s.store chance TokenError.serverError _ with ⟨e, done⟩ | ⟨r, draft, drafted, done⟩
        · rw [done]
          exact refused
        · rw [done]
          injection drafted with drafted
          injection drafted with answer drafted
          let g := OAuthStore.newGrant prim c.clientName clientId ac auth scopes t chance
          have begets : Begets s.store.inner draft g := by
            subst drafted
            refine ⟨fun k => Inner.insert_get, rfl, rfl, rfl, fun h a found => ?_⟩
            simp only [Inner.issueAccess, Inner.insert_get] at found
            split at found
            · cases found
              exact .inr rfl
            · exact .inl found
          have allowed : Allowed settle detect s.log (.created g (s.approvalOf call)) := by
            refine ⟨(valid.fresh_grant fresh).1, fun revoked => ?_, valid.approvalOf_approved holds⟩
            have gone := (valid.barred _ revoked).2.1
            exact Option.some_ne_none c (registered.symm.trans gone)
          have begun := first.trans (first.valid.beget begets allowed (valid.fresh_grant fresh).2 rfl (valid.fresh_hash fresh)
            (by simp [g, OAuthStore.newGrant, Chance.names]) (by simp [g, OAuthStore.newGrant, Chance.names]))
          have there : draft.grants[chance.randomToken "wsg_"]? = some g := by
            rw [begets.grants]
            exact if_pos rfl
          simp only [Server.record, there]
          exact begun.trans begun.valid.dropping

structure Turns (d draft : Inner) (old g : Grant) : Prop where
  grants : ∀ k : String, draft.grants[k]? = if k = old.id then some g else d.grants[k]?
  rebuilt : ∃ base : Inner, base.grants = draft.grants ∧ base.access = d.access ∧ draft.retiredIndex = base.rebuildIndexes.retiredIndex
  clients : draft.clients = d.clients
  codes : draft.codes = d.codes
  access : ∀ (h : String) a, draft.access[h]? = some a → d.access[h]? = some a ∨ a.grantId = old.id

theorem rotated_hashes {old : Grant} {newHash h : String} {t : Int}
    (among : h ∈ (OAuthStore.rotated old newHash t).refreshHash :: (OAuthStore.rotated old newHash t).retiredRefreshHashes) :
    h = newHash ∨ h ∈ old.refreshHash :: old.retiredRefreshHashes := by
  rcases List.mem_cons.mp among with rfl | retired
  · exact .inl rfl
  · right
    rcases List.mem_append.mp (List.mem_of_mem_drop retired) with earlier | current
    · exact List.mem_cons_of_mem _ earlier
    · rw [List.mem_singleton.mp current]
      exact List.mem_cons_self

theorem rotated_last (old : Grant) (newHash : String) (t : Int) :
    (OAuthStore.rotated old newHash t).retiredRefreshHashes.getLast? = some old.refreshHash := by
  simp [OAuthStore.rotated, List.getLast?_drop, retiredRefreshKeep]

theorem Turns.tidy {d draft : Inner} {old : Grant} {newHash : String} {t : Int} {owners : String → Option String}
    (turns : Turns d draft old (OAuthStore.rotated old newHash t)) (tidy : d.Tidy owners) (there : d.grants[old.id]? = some old)
    (mine : owners newHash = some old.id) : draft.Tidy owners := by
  have others : ∀ (k : String) other, draft.grants[k]? = some other →
      (k = old.id ∧ other = OAuthStore.rotated old newHash t) ∨ d.grants[k]? = some other := by
    intro k other found
    rw [turns.grants] at found
    split at found
    · rename_i same
      cases found
      exact .inl ⟨same, rfl⟩
    · exact .inr found
  have keyed : ∀ (k : String) other, draft.grants[k]? = some other → other.id = k := by
    intro k other found
    rcases others k other found with ⟨rfl, rfl⟩ | earlier
    · rfl
    · exact tidy.keyed k other earlier
  have present : ∀ a : AccessInfo, (∃ g, d.grants[a.grantId]? = some g) ∨ a.grantId = old.id → ∃ g, draft.grants[a.grantId]? = some g := by
    intro a held
    rw [turns.grants]
    split
    · exact ⟨_, rfl⟩
    · rename_i apart
      exact held.resolve_right apart
  have owned : ∀ (k : String) other, draft.grants[k]? = some other → ∀ h ∈ other.refreshHash :: other.retiredRefreshHashes,
      owners h = some k := by
    intro k other found h among
    rcases others k other found with ⟨rfl, rfl⟩ | earlier
    · rcases rotated_hashes among with rfl | before_
      · exact mine
      · exact tidy.owned _ old there h before_
    · exact tidy.owned k other earlier h among
  obtain ⟨base, grants, accesses, index⟩ := turns.rebuilt
  have again : base.rebuildIndexes.Tidy owners := by
    refine Inner.rebuildIndexes_tidy (grants ▸ keyed) (fun h a found => ?_) (grants ▸ owned)
    rw [grants]
    rw [accesses] at found
    exact present a (.inl (tidy.access h a found))
  refine ⟨keyed, fun h a found => present a ?_, owned, fun k other found h among => ?_⟩
  · exact (turns.access h a found).imp_left (tidy.access h a)
  · rw [index]
    exact again.retired k other (grants ▸ found) h among

theorem turn (valid : Consistent settle detect s) {old : Grant} {draft : Inner} {newHash : String} {t : Int}
    (turns : Turns s.store.inner draft old (OAuthStore.rotated old newHash t)) (there : s.store.inner.grants[old.id]? = some old)
    (live : ¬Closed detect s.log old.id) (free : s.owners newHash = none) (hash : newHash ∈ s.named) :
    Advance settle detect call s { s with
      store := ⟨draft, draft.snapshot⟩
      log := .rotated old.id old.refreshHash t :: .used old.id :: s.log
      owners := Function.update s.owners newHash (some old.id) } := by
  have owner := valid.tidy.owned old.id old there old.refreshHash List.mem_cons_self
  have used : Advance settle detect call s { s with log := .used old.id :: s.log } :=
    valid.logs_plain (.used old.id) live (fun _ closing => closing) (fun _ same => by cases same) (fun _ _ same => by cases same)
      (fun _ _ _ same => by cases same)
  have owned : Advance settle detect call s { s with
      log := .used old.id :: s.log
      owners := Function.update s.owners newHash (some old.id) } :=
    used.trans (used.valid.owning free hash (valid.ownersNamed _ _ owner).2)
  have open_ : ¬Closed detect (.used old.id :: s.log) old.id := fun closed => live (closed.resolve_left fun closing => closing)
  have recorded : Recorded ([.rotated old.id old.refreshHash t] ++ .used old.id :: s.log) old.id (OAuthStore.rotated old newHash t) := by
    obtain ⟨⟨first, approval, created, same⟩, -, -⟩ := valid.recorded old.id old (.inl there)
    refine ⟨⟨first, approval, by simp [created], same⟩, fun other u rotated => ?_, fun h last => ?_⟩
    · rcases List.mem_cons.mp rotated with here | rest
      · injection here with _ current _
        have different : newHash = old.refreshHash := current
        rw [different, owner] at free
        cases free
      · rcases List.mem_cons.mp rest with impossible | before_
        · cases impossible
        · have held := valid.rotatedOwned other newHash u before_
          rw [free] at held
          cases held
    · rw [rotated_last] at last
      cases last
      exact List.mem_cons_self
  exact owned.trans (owned.valid.place [.rotated old.id old.refreshHash t] turns.grants
    (turns.tidy owned.valid.tidy there (Function.update_self _ _ _)) turns.clients turns.codes turns.access open_ recorded
    (.inr ⟨old, t, there, rfl⟩))

theorem removal_step (valid : Consistent settle detect s) {ρ : Type} {r : ρ} {failed : String → TokenError} (id : String) :
    Advance settle detect call s { s with
      store := (s.store.commit chance failed fun d => .ok (r, d.removeGrant id)).2
      named := chance.names prim ++ s.named } :=
  valid.quiet_step (Int.le_refl _) (OAuthStore.removal_quiet s.store (.refl _) valid.tidy rfl id) _

theorem rotate_step (valid : Consistent settle detect s) (fresh : s.Fresh prim chance) (clean : s.Clean detect) (grant : Grant)
    (auth : Option UserAuthority) (requested : Option (List String)) (t : Int) :
    Advance settle detect call s (s.perform prim call chance (.rotate grant auth requested t)).2 := by
  have refused : Advance settle detect call s { s with named := chance.names prim ++ s.named } := valid.naming _
  have removed : Advance settle detect call s { s with
      store := (s.store.commit chance TokenError.serverError fun d => .ok ((), d.removeGrant grant.id)).2
      named := chance.names prim ++ s.named } := valid.removal_step grant.id
  unfold Server.perform Section.run OAuthStore.rotate
  dsimp only
  split
  · exact refused
  · split
    · exact refused
    · split
      · rcases commit_cases s.store chance TokenError.serverError fun d => .ok ((), d.removeGrant grant.id) with
          ⟨e, done⟩ | ⟨r, draft, -, done⟩ <;> rw [done] at removed ⊢ <;> exact removed
      · split
        · exact refused
        · rename_i scopes _
          split
          · exact refused
          · rcases commit_cases s.store chance TokenError.serverError _ with ⟨e, done⟩ | ⟨r, draft, drafted, done⟩
            · rw [done]
              exact refused
            · rw [done]
              split at drafted
              · cases drafted
              · rename_i old there
                injection drafted with drafted
                injection drafted with answer drafted
                have named := valid.tidy.keyed grant.id old there
                rw [← named] at there drafted
                let g := OAuthStore.rotated old (prim.secretHash "refresh" (chance.randomToken "wsrt_")) t
                let base := { s.store.inner with grants := s.store.inner.grants.insert old.id g }
                have turns : Turns s.store.inner draft old g := by
                  subst drafted
                  refine ⟨fun k => Inner.insert_get, ⟨base, rfl, rfl, rfl⟩, rfl, rfl, fun h a found => ?_⟩
                  simp only [Inner.issueAccess, Inner.insert_get] at found
                  split at found
                  · cases found
                    exact .inr rfl
                  · exact .inl found
                have live : ¬Closed detect s.log old.id := by
                  intro closed
                  rw [clean old.id closed] at there
                  cases there
                have turned := refused.trans (refused.valid.turn turns there live (valid.fresh_hash fresh) (by simp [Chance.names]))
                simp only [Server.record, ← named, there]
                exact turned

theorem pruned_late (valid : Consistent settle detect s) {t : Int} {id : String} {g : Grant}
    (found : (s.store.inner.prune t).grants[id]? = some g) : s.store.inner.grants[id]? = some g ∧ t < g.refreshExpiresAt := by
  rw [Inner.prune_grants t valid.tidy.keyed, Option.filter_eq_some_iff] at found
  simpa using found

theorem findGrant_within (refreshToken clientId : String) (resource : Option String) {t : Int} {id : String}
    (lost : (s.store.inner.prune t).grants[id]? = none) :
    (OAuthStore.findGrant prim s.store refreshToken clientId resource t chance).2.inner.grants[id]? = none := by
  unfold OAuthStore.findGrant
  dsimp only
  split
  · rename_i grantId _
    split
    · exact lost
    · rcases commit_cases (s.store.pruned t) chance TokenError.serverError fun d => .ok ((), d.removeGrant grantId) with
        ⟨e, done⟩ | ⟨r, draft, drafted, done⟩
      · rw [done]
        exact lost
      · rw [done]
        cases drafted
        have gone : ((s.store.inner.prune t).removeGrant grantId).grants[id]? = none := by
          rw [Inner.removeGrant_grants, lost, ite_self]
        exact gone
  · split <;> exact lost

theorem findGrant_caught (valid : Consistent settle detect s) {refreshToken clientId : String} {resource : Option String} {t : Int} {id : String}
    {g : Grant} (there : (s.store.inner.prune t).grants[id]? = some g)
    (retired : prim.secretHash "refresh" refreshToken ∈ g.retiredRefreshHashes)
    (old : OAuthStore.retryOf (s.store.inner.prune t) id (prim.secretHash "refresh" refreshToken) t = none)
    (written : chance.written.isOk = true) :
    (OAuthStore.findGrant prim s.store refreshToken clientId resource t chance).2.inner.grants[id]? = none := by
  have indexed := (Inner.prune_tidy t valid.tidy).retired id g there _ retired
  unfold OAuthStore.findGrant OAuthStore.commit
  dsimp only [OAuthStore.pruned]
  rw [indexed]
  dsimp only
  rw [old]
  cases wrote : chance.written with
  | error e =>
    rw [wrote] at written
    cases written
  | ok _ =>
    dsimp only
    rw [Inner.removeGrant_grants, if_pos rfl]

theorem last_rotation (valid : Consistent settle detect s) {id h : String} {g : Grant} {r : Int} (held : s.store.inner.grants[id]? = some g)
    (last : g.retiredRefreshHashes.getLast? = some h) (rotated : .rotated id h r ∈ s.log) : g.lastRotatedAt = r :=
  valid.rotatedOnce id id h _ _ ((valid.recorded id g (.inl held)).last h last) rotated

theorem retryOf_some {d : Inner} {id h : String} {t : Int} {g : Grant} (retry : OAuthStore.retryOf d id h t = some g) :
    d.grants[id]? = some g ∧ g.retiredRefreshHashes.getLast? = some h ∧ t - g.lastRotatedAt ≤ refreshRetryGraceSecs := by
  rw [OAuthStore.retryOf, Option.filter_eq_some_iff] at retry
  simpa using retry

theorem find_step (valid : Consistent settle detect s) {t : Int} (reads : s.Reads t) {refreshToken clientId : String} {resource : Option String}
    (remembered : detect → s.Remembered prim chance (.findGrant refreshToken clientId resource t)) :
    Advance settle detect call s (s.perform prim call chance (.findGrant refreshToken clientId resource t)).2 ∧
      (s.perform prim call chance (.findGrant refreshToken clientId resource t)).2.Clean detect := by
  have quiet : Quiet s.owners t s.store (OAuthStore.findGrant prim s.store refreshToken clientId resource t chance).2 :=
    OAuthStore.findGrant_quiet valid.tidy refreshToken clientId resource
  have first : Advance settle detect call s _ := valid.quiet_step reads.past quiet (chance.names prim)
  have closed : ∀ id, closes detect s.log id (.presented (prim.secretHash "refresh" refreshToken) t) →
      (OAuthStore.findGrant prim s.store refreshToken clientId resource t chance).2.inner.grants[id]? = none := by
    rintro id ⟨detects, r, rotated, late⟩
    cases there : (s.store.inner.prune t).grants[id]? with
    | none => exact findGrant_within refreshToken clientId resource there
    | some g =>
      have known := remembered detects id r rotated g there
      rw [if_neg (Int.not_le.mpr late)] at known
      refine valid.findGrant_caught there known.1 ?_ known.2
      cases retry : OAuthStore.retryOf (s.store.inner.prune t) id (prim.secretHash "refresh" refreshToken) t with
      | none => rfl
      | some other =>
        obtain ⟨found, last, soon⟩ := retryOf_some retry
        have same := valid.last_rotation (valid.pruned_late found).1 last rotated
        omega
  have presented : Advance settle detect call s { s with
      store := (OAuthStore.findGrant prim s.store refreshToken clientId resource t chance).2
      named := chance.names prim ++ s.named
      log := .presented (prim.secretHash "refresh" refreshToken) t :: s.log } :=
    first.trans (first.valid.logs (.presented (prim.secretHash "refresh" refreshToken) t) trivial (fun id closing => first.valid.gone (closed id closing))
      (fun _ _ same => by cases same) (fun _ same => by cases same) (fun _ _ same => by cases same) (fun _ _ _ same => by cases same))
  have emptied : ∀ id, Closed detect (.presented (prim.secretHash "refresh" refreshToken) t :: s.log) id →
      (OAuthStore.findGrant prim s.store refreshToken clientId resource t chance).2.inner.grants[id]? = none := by
    rintro id (closing | earlier)
    · exact closed id closing
    · apply findGrant_within
      cases there : (s.store.inner.prune t).grants[id]? with
      | none => rfl
      | some g =>
        obtain ⟨held, late⟩ := valid.pruned_late there
        have early := (valid.ended id earlier).grants g held
        have since := reads.since
        omega
  unfold Server.perform Section.run Server.record
  dsimp only
  split
  · exact ⟨presented, emptied⟩
  · rename_i id theft
    cases wrote : chance.written.isOk with
    | false => exact ⟨presented, emptied⟩
    | true =>
      refine ⟨presented.trans (presented.valid.logs_plain (.caught id (prim.secretHash "refresh" refreshToken) t) ?_
        (fun _ closing => closing) (fun _ same => by cases same) (fun _ _ same => by cases same) (fun _ _ _ same => by cases same)),
        fun other here => emptied other (here.resolve_left fun closing => closing)⟩
      intro detects r member
      have rotated := (List.mem_cons.mp member).resolve_left fun same => by cases same
      rw [Server.theft, Option.filter_eq_some_iff] at theft
      obtain ⟨indexed, caught⟩ := theft
      simp only [Bool.and_eq_true, Option.isNone_iff_eq_none, TreeMap.contains_eq_isSome_getElem?] at caught
      obtain ⟨g, there⟩ := Option.isSome_iff_exists.mp caught.2
      have known := remembered detects id r rotated g there
      apply Int.not_le.mp
      intro soon
      rw [if_pos soon] at known
      have same := valid.last_rotation (valid.pruned_late there).1 known rotated
      have retry : OAuthStore.retryOf (s.store.inner.prune t) id (prim.secretHash "refresh" refreshToken) t = some g := by
        rw [OAuthStore.retryOf, Option.filter_eq_some_iff]
        refine ⟨there, ?_⟩
        simpa [known, same] using soon
      rw [caught.1] at retry
      cases retry

theorem validateAccess_some {store : OAuthStore} {token resource : String} {t : Int} {info : AccessInfo}
    (ok : (OAuthStore.validateAccess prim store token resource t).1 = some info) :
    store.inner.access[prim.secretHash "access" token]? = some info := by
  unfold OAuthStore.validateAccess at ok
  dsimp only at ok
  split at ok
  · cases ok
  · rename_i found there
    split at ok
    · cases ok
    · split at ok
      · cases ok
      · split at ok
        · cases ok
        · cases ok
          exact there

theorem validate_step (valid : Consistent settle detect s) (token resource : String) (t : Int) :
    Advance settle detect call s (s.perform prim call chance (.validateAccess token resource t)).2 := by
  have quiet : Quiet s.owners s.clock s.store (OAuthStore.validateAccess prim s.store token resource t).2 :=
    OAuthStore.validateAccess_quiet valid.tidy token resource t
  have first : Advance settle detect call s _ := valid.quiet_step (Int.le_refl _) quiet (chance.names prim)
  unfold Server.perform Section.run Server.record
  dsimp only
  split
  · exact first
  · rename_i info done
    refine first.trans (first.valid.logs_plain (.used info.grantId) ?_ (fun _ closing => closing) (fun _ same => by cases same)
      (fun _ _ same => by cases same) (fun _ _ _ same => by cases same))
    intro closed
    exact (valid.ended info.grantId closed).access _ info (validateAccess_some done) rfl

theorem revoked_step {scope : Scope} (valid : Consistent settle detect s)
    (lost : ∀ (id : String) g, s.store.inner.grants[id]? = some g → scope.covers g = false)
    (covered : ∀ first g : Grant, first.id = g.id → first.username = g.username → first.clientId = g.clientId → scope.covers first = true →
      scope.covers g = true)
    (bars : settle → (∀ (h : String) c, s.store.inner.codes[h]? = some c → scope.bars c.username = false) ∧
      ∀ entry ∈ s.carried, scope.bars entry.username = false)
    (client : ∀ c, scope = .client c → c ∈ s.named ∧ s.store.inner.clients[c]? = none ∧ ∀ k ∈ s.store.file.clients, k.clientId ≠ c) :
    Advance settle detect call s { s with log := .revoked scope :: s.log } := by
  refine valid.logs (.revoked scope) trivial (fun id closing => valid.gone ?_) (fun settles other same => ?_) (fun c same => ?_)
    (fun _ _ same => by cases same) (fun _ _ _ same => by cases same)
  · cases found : s.store.inner.grants[id]? with
    | none => rfl
    | some g =>
      obtain ⟨first, approval, created, covers, rfl⟩ := closing
      obtain ⟨born, a, created', same, username, clientId⟩ := (valid.recorded _ g (.inl found)).born
      obtain rfl := created_unique valid.lawful created' created same
      have reached := covered born g (valid.tidy.keyed _ g found).symm username clientId covers
      rw [lost _ g found] at reached
      cases reached
  · cases same
    exact bars settles
  · injection same with same
    exact client c same

theorem before_of_after {t : Int} {store : OAuthStore} (quiet : Quiet s.owners t s.store store) {id : String} {g : Grant}
    (found : store.inner.grants[id]? = some g) : ∃ old : Grant, s.store.inner.grants[id]? = some old ∧ old.id = g.id ∧
      old.username = g.username ∧ old.clientId = g.clientId := by
  obtain ⟨old, u, there, rfl⟩ := quiet.keeps.grants id g found
  exact ⟨old, there, rfl, rfl, rfl⟩

theorem isOk_some {ε α : Type} {value : Except ε α} (ok : value.isOk = true) : ∃ r, value = .ok r := by
  cases value with
  | error e => cases ok
  | ok r => exact ⟨r, rfl⟩

theorem note_step (valid : Consistent settle detect s) {ok : Bool} {event : Event}
    (logged : ok = true → Advance settle detect call s { s with log := event :: s.log }) :
    Advance settle detect call s (s.note ok event) := by
  cases ok with
  | false => exact ⟨valid, ⟨rfl, rfl, rfl, fun clean => clean, fun _ _ => rfl⟩⟩
  | true => exact logged rfl

theorem revokeGrant_step (valid : Consistent settle detect s) (grantId : String) :
    Advance settle detect call s (s.perform prim call chance (.revokeGrant grantId)).2 := by
  have quiet : Quiet s.owners s.clock s.store (s.store.revokeGrant grantId chance).2 := OAuthStore.revokeGrant_quiet valid.tidy grantId
  have first : Advance settle detect call s _ := valid.quiet_step (Int.le_refl _) quiet (chance.names prim)
  refine first.trans (note_step first.valid fun ok => revoked_step first.valid ?_ ?_ ?_ ?_)
  · intro id g found
    obtain ⟨r, done⟩ := isOk_some ok
    simp only [Scope.covers, decide_eq_false_iff_not]
    intro same
    obtain rfl := (first.valid.tidy.keyed id g found).symm.trans same
    exact Option.some_ne_none g (found.symm.trans (OAuthStore.revokeGrant_lost done))
  · intro born g same _ _ covers
    simpa [Scope.covers, same] using covers
  · exact fun _ => ⟨fun _ _ _ => rfl, fun _ _ => rfl⟩
  · exact fun c same => by cases same

theorem revokeUser_step (valid : Consistent settle detect s) {username : String} (unclaimed : settle → s.Unclaimed (.revokeUser username)) :
    Advance settle detect call s (s.perform prim call chance (.revokeUser username)).2 := by
  have quiet : Quiet s.owners s.clock s.store (s.store.revokeUser username chance).2 := OAuthStore.revokeAny_quiet valid.tidy _
  have first : Advance settle detect call s _ := valid.quiet_step (Int.le_refl _) quiet (chance.names prim)
  refine first.trans (note_step first.valid fun ok => revoked_step first.valid ?_ ?_ ?_ ?_)
  · intro id g found
    obtain ⟨n, done⟩ := isOk_some ok
    obtain ⟨old, there, -, same, -⟩ := before_of_after quiet found
    simp only [Scope.covers, decide_eq_false_iff_not]
    intro mine
    have gone : (s.store.revokeUser username chance).2.inner.grants[id]? = none :=
      OAuthStore.revokeUser_lost valid.tidy done fun other held => by
        rw [there] at held
        cases held
        exact same.trans mine
    exact Option.some_ne_none g (found.symm.trans gone)
  · intro born g _ same _ covers
    simpa [Scope.covers, same] using covers
  · intro settles
    obtain ⟨codes, carried⟩ := unclaimed settles
    refine ⟨fun h c found => ?_, fun entry there => ?_⟩
    · simpa [Scope.bars, eq_comm] using codes c (mem_values.mpr ⟨h, quiet.keeps.codes h c found⟩)
    · simpa [Scope.bars, eq_comm] using carried entry there
  · exact fun c same => by cases same

theorem revokeAll_step (valid : Consistent settle detect s) (unclaimed : settle → s.Unclaimed .revokeAll) :
    Advance settle detect call s (s.perform prim call chance .revokeAll).2 := by
  have quiet : Quiet s.owners s.clock s.store (s.store.revokeAll chance).2 := OAuthStore.revokeAny_quiet valid.tidy _
  have first : Advance settle detect call s _ := valid.quiet_step (Int.le_refl _) quiet (chance.names prim)
  refine first.trans (note_step first.valid fun ok => revoked_step first.valid ?_ ?_ ?_ ?_)
  · intro id g found
    obtain ⟨n, done⟩ := isOk_some ok
    exact absurd (found.symm.trans (OAuthStore.revokeAll_lost done id)) (Option.some_ne_none g)
  · exact fun _ _ _ _ _ covers => covers
  · intro settles
    obtain ⟨codes, carried⟩ := unclaimed settles
    refine ⟨fun h c found => ?_, fun entry there => ?_⟩
    · have member := mem_values.mpr ⟨h, quiet.keeps.codes h c found⟩
      rw [codes] at member
      cases member
    · have held : entry ∈ s.carried := there
      rw [carried] at held
      cases held
  · exact fun c same => by cases same

theorem deleteClient_step (valid : Consistent settle detect s) (clientId : String) :
    Advance settle detect call s (s.perform prim call chance (.deleteClient clientId)).2 := by
  have quiet : Quiet s.owners s.clock s.store (s.store.deleteClient clientId chance).2 :=
    OAuthStore.deleteClient_quiet valid.tidy clientId
  have first : Advance settle detect call s _ := valid.quiet_step (Int.le_refl _) quiet (clientId :: chance.names prim)
  refine first.trans (note_step first.valid fun ok => revoked_step first.valid ?_ ?_ ?_ ?_)
  · intro id g found
    obtain ⟨r, done⟩ := isOk_some ok
    obtain ⟨old, there, -, -, same⟩ := before_of_after quiet found
    simp only [Scope.covers, decide_eq_false_iff_not]
    intro mine
    have gone := (OAuthStore.deleteClient_lost valid.tidy valid.clientKeys done).1 id fun other held => by
      rw [there] at held
      cases held
      exact same.trans mine
    exact Option.some_ne_none g (found.symm.trans gone)
  · intro born g _ _ same covers
    simpa [Scope.covers, same] using covers
  · exact fun _ => ⟨fun _ _ _ => rfl, fun _ _ => rfl⟩
  · rintro c ⟨⟩
    obtain ⟨r, done⟩ := isOk_some ok
    exact ⟨List.mem_cons_self, (OAuthStore.deleteClient_lost valid.tidy valid.clientKeys done).2⟩

theorem single_step (valid : Consistent settle detect s) {β : Type} {operation : Section β} (single : operation.Single)
    (permits : s.Permits settle detect prim chance operation) :
    Advance settle detect call s (s.perform prim call chance operation).2 := by
  have tidy := valid.tidy
  have now := Int.le_refl s.clock
  cases operation with
  | list => exact valid.quiet_step now (OAuthStore.pruned_quiet tidy) _
  | beginPending p => exact valid.quiet_step now (OAuthStore.beginPending_quiet tidy p) _
  | peekPending id => exact valid.quiet_step now (OAuthStore.pruned_quiet tidy) _
  | takePending id approver => exact (valid.take_step id approver).1
  | revokeToken token clientId => exact valid.quiet_step now (OAuthStore.revokeToken_quiet tidy token clientId) _
  | deleteClient clientId => exact valid.deleteClient_step clientId
  | revokeGrant grantId => exact valid.revokeGrant_step grantId
  | revokeUser username => exact valid.revokeUser_step permits.1
  | revokeAll => exact valid.revokeAll_step permits.1
  | _ => exact single.elim

end Consistent
end Mcp
