import WolfStack.Mcp.Indexes
import WolfStack.Mcp.Revocation

/-! Do the live state, its indexes and the file agree? Whatever the calls and the writes that
fail, they do, but for what pruning would drop. -/

namespace Mcp
open Effects
open Std (TreeMap)
attribute [local irreducible] Inner.prune

variable {owners : String → Option String} {prim : Primitives} {call : CallId} {chance : Chance}

def Section.time (clock : Int) : {β : Type} → Section β → Int
  | _, .registerClient _ _ _ t | _, .issueCode _ _ _ _ t | _, .consumeCode _ _ _ _ _ t | _, .findGrant _ _ _ t => t
  | _, _ => clock

namespace OAuthStore
variable {s middle : OAuthStore} {ε ρ : Type} {t : Int}

/-! ### Sections -/

/-- What a section leaves has been written, or is what it found, pruned or not. -/
structure Tracks (t : Int) (before after : OAuthStore) : Prop where
  exact_ : after.inner.Exact
  file : after.file = after.inner.snapshot ∨
    (after.file = before.file ∧ (before.inner.Alike after.inner ∨ (before.inner.prune t).Alike after.inner))

theorem still_tracks (exact_ : s.inner.Exact) : Tracks t s s := ⟨exact_, .inr ⟨rfl, .inl (.refl _)⟩⟩

theorem pruned_tracks (exact_ : s.inner.Exact) (tidy : s.inner.Tidy owners) : Tracks t s (s.pruned t) :=
  ⟨Inner.prune_exact exact_ tidy t, .inr ⟨rfl, .inr (.refl _)⟩⟩

theorem aside_tracks (exact_ : s.inner.Exact) (tidy : s.inner.Tidy owners) {inner : Inner} (clients : inner.clients = (s.inner.prune t).clients)
    (grants : inner.grants = (s.inner.prune t).grants) (refresh : inner.refreshIndex = (s.inner.prune t).refreshIndex)
    (retired : inner.retiredIndex = (s.inner.prune t).retiredIndex) : Tracks t s { s with inner } := by
  have regards : (s.inner.prune t).Regards inner := fun k => by rw [grants]
  exact ⟨(Inner.prune_exact exact_ tidy t).same regards refresh retired, .inr ⟨rfl, .inr ⟨fun k => by rw [clients], regards⟩⟩⟩

theorem commit_tracks {failed : String → ε} {f : Inner → Except ε (ρ × Inner)} (tracks : Tracks t s middle)
    (drafts : ∀ r draft, f middle.inner = .ok (r, draft) → draft.Exact) : Tracks t s (middle.commit chance failed f).2 := by
  rcases Consistent.commit_cases middle chance failed f with ⟨e, done⟩ | ⟨r, draft, drafted, done⟩
  · rw [done]
    exact tracks
  · rw [done]
    exact ⟨drafts r draft drafted, .inl rfl⟩

theorem removal_tracks {failed : String → ε} {r : ρ} (tracks : Tracks t s middle) (tidy : middle.inner.Tidy owners) (id : String) :
    Tracks t s (middle.commit chance failed fun d => .ok (r, d.removeGrant id)).2 := by
  apply commit_tracks tracks
  intro r draft drafted
  cases drafted
  exact Inner.removeGrant_exact tracks.exact_ tidy id

theorem registerClient_tracks (exact_ : s.inner.Exact) (tidy : s.inner.Tidy owners) (clientName : Option String) (redirectUris : List String)
    (source : String) : Tracks t s (s.registerClient clientName redirectUris source t chance).2 := by
  apply commit_tracks (pruned_tracks exact_ tidy)
  intro r draft drafted
  have pruned := Inner.prune_exact exact_ tidy t
  dsimp only at drafted
  split at drafted
  · cases drafted
  · rename_i room found
    cases drafted
    have kept : room.Exact := by
      split at found
      · obtain ⟨victim, -, rfl⟩ := Option.map_eq_some_iff.mp found
        exact pruned.same (fun _ => rfl) rfl rfl
      · cases found
        exact pruned
    exact kept.same (fun _ => rfl) rfl rfl

theorem deleteClient_tracks (exact_ : s.inner.Exact) (tidy : s.inner.Tidy owners) (clientId : String) :
    Tracks t s (s.deleteClient clientId chance).2 := by
  apply commit_tracks (still_tracks exact_)
  intro r draft drafted
  cases drafted
  have first : Inner.Exact { s.inner with clients := s.inner.clients.erase clientId } := exact_.same (fun _ => rfl) rfl rfl
  have kept : Inner.Tidy owners { s.inner with clients := s.inner.clients.erase clientId } := tidy.same rfl rfl fun _ _ found => found
  exact Inner.removeGrants_exact first kept _

theorem beginPending_tracks (exact_ : s.inner.Exact) (tidy : s.inner.Tidy owners) (p : PendingAuth) :
    Tracks t s (s.beginPending p t chance).2 := by
  unfold beginPending
  split
  · exact still_tracks exact_
  · dsimp only
    split
    · exact pruned_tracks exact_ tidy
    · split
      · exact pruned_tracks exact_ tidy
      · split
        · exact pruned_tracks exact_ tidy
        · exact aside_tracks exact_ tidy rfl rfl rfl rfl

theorem issueCode_tracks (exact_ : s.inner.Exact) (tidy : s.inner.Tidy owners) (p : PendingAuth) (username : String) (source : AuthSource)
    (granted : List String) : Tracks t s (issueCode prim s p username source granted t chance).2 := by
  unfold issueCode
  dsimp only
  split
  · exact pruned_tracks exact_ tidy
  · apply commit_tracks (pruned_tracks exact_ tidy)
    intro r draft drafted
    cases drafted
    have pruned := Inner.prune_exact exact_ tidy t
    unfold approveClient
    split <;> exact pruned.same (fun _ => rfl) rfl rfl

theorem consumeCode_tracks (exact_ : s.inner.Exact) (tidy : s.inner.Tidy owners) (code clientId redirectUri codeVerifier : String)
    (resource : Option String) : Tracks t s (consumeCode prim s code clientId redirectUri codeVerifier resource t chance).2 := by
  unfold consumeCode
  dsimp only
  split
  · split
    · exact pruned_tracks exact_ tidy
    · exact removal_tracks (pruned_tracks exact_ tidy) (Inner.prune_tidy t tidy) _
  · have erased : Tracks t s ⟨{ (s.inner.prune t) with codes := (s.inner.prune t).codes.erase (prim.secretHash "code" code) }, s.file⟩ :=
      aside_tracks exact_ tidy rfl rfl rfl rfl
    split
    · exact erased
    · split
      · exact erased
      · split
        · exact erased
        · split <;> exact erased

theorem createGrant_tracks (exact_ : s.inner.Exact) (tidy : s.inner.Tidy owners) (free : owners (prim.secretHash "refresh" (chance.randomToken "wsrt_")) = none)
    (absent : s.inner.grants[chance.randomToken "wsg_"]? = none) (code clientId : String) (ac : AuthCode) (auth : UserAuthority)
    (scopes : List String) (at_ : Int) : Tracks t s (createGrant prim s code clientId ac auth scopes at_ chance).2 := by
  unfold createGrant
  dsimp only
  split
  · exact still_tracks exact_
  · split
    · exact still_tracks exact_
    · split
      · exact still_tracks exact_
      · apply commit_tracks (still_tracks exact_)
        intro r draft drafted
        cases drafted
        refine Inner.insert_exact (g := newGrant prim _ clientId ac auth scopes at_ chance) exact_ absent rfl rfl rfl rfl ?_
        intro k old there same
        have mine := tidy.owned k old there _ List.mem_cons_self
        rw [same] at mine
        have none_ : owners (prim.secretHash "refresh" (chance.randomToken "wsrt_")) = some k := mine
        rw [free] at none_
        cases none_

theorem findGrant_tracks (exact_ : s.inner.Exact) (tidy : s.inner.Tidy owners) (refreshToken clientId : String) (resource : Option String) :
    Tracks t s (findGrant prim s refreshToken clientId resource t chance).2 := by
  unfold findGrant
  dsimp only
  split
  · split
    · exact pruned_tracks exact_ tidy
    · exact removal_tracks (pruned_tracks exact_ tidy) (Inner.prune_tidy t tidy) _
  · split <;> exact pruned_tracks exact_ tidy

theorem rotate_tracks (exact_ : s.inner.Exact) (tidy : s.inner.Tidy owners) {grant : Grant} {auth : Option UserAuthority}
    {requested : Option (List String)} {at_ : Int} {later : String → Option String}
    (after : (rotate prim s grant auth requested at_ chance).2.inner.Tidy later) :
    Tracks t s (rotate prim s grant auth requested at_ chance).2 := by
  unfold rotate at after ⊢
  dsimp only at after ⊢
  split
  · exact still_tracks exact_
  · rename_i current
    rw [if_neg current] at after
    split
    · exact still_tracks exact_
    · dsimp only at after
      split
      · exact removal_tracks (still_tracks exact_) tidy grant.id
      · rename_i same
        rw [if_neg same] at after
        split
        · exact still_tracks exact_
        · rename_i scopes asked
          rw [asked] at after
          dsimp only at after
          split
          · exact still_tracks exact_
          · rename_i room
            rw [if_neg room] at after
            rcases Consistent.commit_cases s chance TokenError.serverError _ with ⟨e, done⟩ | ⟨r, draft, drafted, done⟩
            · rw [done]
              exact still_tracks exact_
            · rw [done] at after ⊢
              refine ⟨?_, .inl rfl⟩
              split at drafted
              · cases drafted
              · cases drafted
                exact (Inner.rebuildIndexes_exact after.keyed after.owned).same (fun _ => rfl) rfl rfl

theorem validateAccess_tracks (exact_ : s.inner.Exact) (token resource : String) (now : Int) :
    Tracks t s (validateAccess prim s token resource now).2 := by
  unfold validateAccess
  dsimp only
  split
  · exact still_tracks exact_
  · split
    · exact ⟨exact_.same (fun _ => rfl) rfl rfl, .inr ⟨rfl, .inl ⟨fun _ => rfl, fun _ => rfl⟩⟩⟩
    · split
      · exact still_tracks exact_
      · split
        · exact still_tracks exact_
        · rename_i info _ _ _ _ g found
          have regards : s.inner.Regards { s.inner with grants := s.inner.grants.insert info.grantId { g with lastUsedAt := now } } := by
            intro k
            rw [Inner.insert_get]
            split
            · rename_i same
              rw [same, found]
              rfl
            · rfl
          exact ⟨exact_.same regards rfl rfl, .inr ⟨rfl, .inl ⟨fun _ => rfl, regards⟩⟩⟩

theorem revokeToken_tracks (exact_ : s.inner.Exact) (tidy : s.inner.Tidy owners) (token : String) (clientId : Option String) :
    Tracks t s (revokeToken prim s token clientId chance).2 := by
  unfold revokeToken
  dsimp only
  split
  · exact still_tracks exact_
  · split
    · exact still_tracks exact_
    · exact removal_tracks (still_tracks exact_) tidy _

theorem revokeGrant_tracks (exact_ : s.inner.Exact) (tidy : s.inner.Tidy owners) (id : String) : Tracks t s (s.revokeGrant id chance).2 := by
  unfold revokeGrant
  split
  · exact still_tracks exact_
  · apply commit_tracks (still_tracks exact_)
    intro r draft drafted
    cases drafted
    exact Inner.removeGrant_exact exact_ tidy id

theorem revokeAny_tracks (exact_ : s.inner.Exact) (tidy : s.inner.Tidy owners) (ids : List String) : Tracks t s (s.revokeAny ids chance).2 := by
  unfold revokeAny
  split
  · exact still_tracks exact_
  · apply commit_tracks (still_tracks exact_)
    intro r draft drafted
    cases drafted
    exact Inner.removeGrants_exact exact_ tidy ids

/-- The indexes are exact, tokens belong to grants, and what the file holds is what is live, up to
the last use of a grant and to what has expired by now. -/
structure Agrees (clock : Int) (s : OAuthStore) : Prop where
  indexes : s.inner.Exact
  access : ∀ (h : String) a, s.inner.access[h]? = some a → ∃ g, s.inner.grants[a.grantId]? = some g
  file : (s.inner.prune clock).Alike ((Inner.load s.file).prune clock)

theorem Tracks.file_alike {before after : OAuthStore} {clock : Int} (tracks : Tracks t before after) (past : t ≤ clock)
    (keyed : before.inner.Keyed) (last : after.inner.Keyed) (agreed : (before.inner.prune clock).Alike ((Inner.load before.file).prune clock)) :
    (after.inner.prune clock).Alike ((Inner.load after.file).prune clock) := by
  rcases tracks.file with written | ⟨same, unpruned | pruned⟩
  · rw [written]
    exact (Inner.load_snapshot last).prune last (Inner.load_keyed _) clock
  · rw [same]
    exact (unpruned.prune keyed last clock).symm.trans agreed
  · rw [same]
    have later := pruned.prune (Inner.prune_keyed t keyed) last clock
    exact ((Inner.prune_prune keyed past).trans later).symm.trans agreed

theorem Agrees.wait {clock later : Int} (agrees : s.Agrees clock) (keyed : s.inner.Keyed) (past : clock ≤ later) : s.Agrees later := by
  refine ⟨agrees.indexes, agrees.access, ?_⟩
  have file := Inner.load_keyed s.file
  have live := Inner.prune_prune keyed past
  have loaded := Inner.prune_prune file past
  have both := agrees.file.prune (Inner.prune_keyed clock keyed) (Inner.prune_keyed clock file) later
  exact (live.trans both).trans loaded.symm

end OAuthStore

variable {s : Server} {permitted : Policy}

theorem Consistent.keyed (valid : Consistent False False s) : s.store.inner.Keyed := ⟨valid.tidy.keyed, valid.clientKeys⟩

theorem Server.perform_store {β : Type} (operation : Section β) :
    (s.perform prim call chance operation).2.store = (operation.run prim s.store s.clock chance).2 ∧
      (s.perform prim call chance operation).2.clock = s.clock := by
  cases operation <;> simp only [perform, record, note] <;> repeat' split
  all_goals simp

theorem Consistent.section_tracks (valid : Consistent False False s) (exact_ : s.store.inner.Exact) (fresh : s.Fresh prim chance)
    {β : Type} {operation : Section β} (after : Consistent False False (s.perform prim call chance operation).2) :
    OAuthStore.Tracks (operation.time s.clock) s.store (operation.run prim s.store s.clock chance).2 := by
  have tidy := valid.tidy
  cases operation with
  | now => exact OAuthStore.still_tracks exact_
  | authority username source wanted => exact OAuthStore.still_tracks exact_
  | registerClient clientName redirectUris source t => exact OAuthStore.registerClient_tracks exact_ tidy clientName redirectUris source
  | list => exact OAuthStore.pruned_tracks exact_ tidy
  | deleteClient clientId => exact OAuthStore.deleteClient_tracks exact_ tidy clientId
  | beginPending p => exact OAuthStore.beginPending_tracks exact_ tidy p
  | peekPending id => exact OAuthStore.pruned_tracks exact_ tidy
  | takePending id approver => exact OAuthStore.aside_tracks exact_ tidy rfl rfl rfl rfl
  | issueCode p username source granted t => exact OAuthStore.issueCode_tracks exact_ tidy p username source granted
  | consumeCode code clientId redirectUri codeVerifier resource t =>
    exact OAuthStore.consumeCode_tracks exact_ tidy code clientId redirectUri codeVerifier resource
  | createGrant code clientId ac auth scopes t =>
    have absent : s.store.inner.grants[chance.randomToken "wsg_"]? = none := by
      cases found : s.store.inner.grants[chance.randomToken "wsg_"]? with
      | none => rfl
      | some g =>
        obtain ⟨first, approval, created, same, -⟩ := (valid.recorded _ g (.inl found)).born
        exact absurd same ((valid.fresh_grant fresh).1 first approval created)
    exact OAuthStore.createGrant_tracks exact_ tidy (valid.fresh_hash fresh) absent code clientId ac auth scopes t
  | findGrant refreshToken clientId resource t => exact OAuthStore.findGrant_tracks exact_ tidy refreshToken clientId resource
  | rotate grant auth requested t =>
    have last := after.tidy
    rw [(Server.perform_store _).1] at last
    exact OAuthStore.rotate_tracks exact_ tidy last
  | validateAccess token resource t => exact OAuthStore.validateAccess_tracks exact_ token resource t
  | revokeToken token clientId => exact OAuthStore.revokeToken_tracks exact_ tidy token clientId
  | revokeGrant grantId => exact OAuthStore.revokeGrant_tracks exact_ tidy grantId
  | revokeUser username => exact OAuthStore.revokeAny_tracks exact_ tidy _
  | revokeAll => exact OAuthStore.revokeAny_tracks exact_ tidy _

abbrev knownSystem (prim : Primitives) (permitted : Policy) : System Server Section CallId Unit :=
  (serverSystem prim permitted).confined (Consistent False False)

abbrev knownRules (prim : Primitives) (permitted : Policy) (call : CallId) : Rules Server Section :=
  (knownSystem prim permitted).rules (fun s => s.store.Agrees s.clock) (fun _ before after => before.clock ≤ after.clock) call

theorem agrees_step {β : Type} {operation : Section β} {value : β} {before after : Server} (agrees : before.store.Agrees before.clock)
    (past : operation.time before.clock ≤ before.clock) (law : (knownSystem prim permitted).commits call before operation value after) :
    after.store.Agrees after.clock ∧ before.clock ≤ after.clock := by
  obtain ⟨⟨-, chance, fresh, -, done⟩, first, last⟩ := law
  obtain rfl : after = (before.perform prim call chance operation).2 := congrArg Prod.snd done
  obtain ⟨store, clock⟩ := @Server.perform_store prim call chance before β operation
  have tracks := first.section_tracks agrees.indexes fresh last
  rw [← store] at tracks
  rw [clock]
  exact ⟨⟨tracks.exact_, last.tidy.access, tracks.file_alike past first.keyed last.keyed agrees.file⟩, Int.le_refl _⟩

theorem past_stable (t : Int) : (knownRules prim permitted call).Stable fun s => t ≤ s.clock := by
  rintro before after - - (⟨⟨clock, later, rfl⟩ | rfl, -⟩ | ⟨other, -, later⟩) held
  · exact Int.le_trans held later
  · exact held
  · exact Int.le_trans held later

/-- Sections that prune at the time of the lock or at a time that was read before. -/
def Section.Timely (t : Int) {β : Type} (operation : Section β) : Prop := ∀ clock, t ≤ clock → operation.time clock ≤ clock

theorem timelyTriple {t : Int} {program : Program Section Unit} (timely : program.Yields (fun operation => operation.Timely t) fun _ => True) :
    (knownRules prim permitted call).Triple (fun s => t ≤ s.clock) program fun _ _ => True := by
  refine (Rules.Triple.yields timely (past_stable t) ?_).weaken_post fun _ _ _ _ => trivial
  intro before β operation value after agrees past known law
  obtain ⟨kept, later⟩ := agrees_step agrees (known _ past) law
  exact ⟨kept, later, Int.le_trans past later⟩

theorem clockTriple {next : Int → Program Section Unit} (timely : ∀ t, (next t).Yields (fun operation => operation.Timely t) fun _ => True) :
    (knownRules prim permitted call).Triple (fun _ => True) (.request .now next) fun _ _ => True := by
  apply Rules.Triple.leading (fun t s => t ≤ s.clock) fun _ _ _ _ _ _ => trivial
  · intro before value after agrees _ law
    obtain ⟨kept, later⟩ := agrees_step agrees (Int.le_refl _) law
    obtain ⟨⟨-, chance, -, -, done⟩, -, -⟩ := law
    obtain rfl : value = before.clock := congrArg Prod.fst done
    exact ⟨kept, later, later⟩
  · exact fun t => timelyTriple (timely t)

theorem ends_known : (knownRules prim permitted call).Triple (fun _ => True) (.pure ()) fun _ _ => True :=
  .pure () (fun _ _ _ _ _ _ => trivial) fun _ _ _ => trivial

theorem lockTriple {β : Type} {operation : Section β} {next : β → Program Section Unit} (timely : ∀ clock, operation.time clock ≤ clock)
    (rest : ∀ value, (knownRules prim permitted call).Triple (fun _ => True) (next value) fun _ _ => True) :
    (knownRules prim permitted call).Triple (fun _ => True) (.request operation next) fun _ _ => True := by
  apply Rules.Triple.leading (fun _ _ => True) fun _ _ _ _ _ _ => trivial
  · intro before value after agrees _ law
    obtain ⟨kept, later⟩ := agrees_step agrees (timely _) law
    exact ⟨kept, later, trivial⟩
  · exact rest

theorem agreesTriple {program : Program Section Unit} (made : Call prim program) :
    (knownRules prim permitted call).Triple (fun _ => True) program fun _ _ => True := by
  cases made with
  | @single β operation single =>
    have timely : ∀ clock, operation.time clock ≤ clock := by
      cases operation <;> first | exact fun _ => Int.le_refl _ | exact single.elim
    exact lockTriple timely fun _ => ends_known
  | register clientName redirectUris source =>
    unfold registerClient
    split
    · exact ends_known
    · split
      · exact ends_known
      · split
        · exact ends_known
        · exact clockTriple fun t => ⟨fun _ past => past, fun _ => trivial⟩
  | approve id username source granted =>
    apply lockTriple fun _ => Int.le_refl _
    intro taken
    cases taken with
    | none => exact ends_known
    | some p => exact clockTriple fun t => ⟨fun _ past => past, fun _ => trivial⟩
  | exchange code clientId redirectUri codeVerifier resource =>
    apply clockTriple
    intro t
    refine ⟨fun _ past => past, fun found => ?_⟩
    cases found with
    | error e => trivial
    | ok ac =>
      refine ⟨fun _ past => Int.le_refl _, fun auth => ?_⟩
      cases auth with
      | none => trivial
      | some auth =>
        dsimp only [Program.pure_bind]
        split
        · trivial
        · exact ⟨fun _ _ => Int.le_refl _, fun _ => trivial⟩
  | refresh refreshToken clientId resource requested =>
    apply clockTriple
    intro t
    refine ⟨fun _ past => past, fun found => ?_⟩
    cases found with
    | error e => trivial
    | ok grant => exact ⟨fun _ _ => Int.le_refl _, fun _ => ⟨fun _ _ => Int.le_refl _, fun _ => trivial⟩⟩
  | validate token resource => exact clockTriple fun t => ⟨fun _ _ => Int.le_refl _, fun _ => trivial⟩

theorem Server.agrees_run (reached : (serverSystem prim permitted).Reaches Server.New s) : s.store.Agrees s.clock := by
  have known : ∀ state, (serverSystem prim permitted).Reaches Server.New state → Consistent False False state :=
    fun state reached => Server.consistent_run (fun _ _ _ _ _ => ⟨False.elim, False.elim⟩) reached
  have sound : (knownSystem prim permitted).Sound Server.New (fun s => s.store.Agrees s.clock)
      (fun _ before after => before.clock ≤ after.clock) fun _ _ => True := by
    constructor
    · intro s new
      have valid : Consistent False False s := new.consistent
      have loaded : s.store.inner = Inner.load s.store.file := by rw [new.store]; rfl
      refine ⟨⟨?_, valid.tidy.access, ?_⟩, fun _ => trivial⟩
      · rw [loaded]
        exact Inner.rebuildIndexes_exact (fun k g found => (load_grants found).2) fun k g found h among => by
          obtain ⟨member, same⟩ := load_grants found
          exact same ▸ valid.fileOwned g member h among
      · rw [loaded]
        exact .refl _
    · rintro before after agrees ⟨⟨clock, later, rfl⟩ | rfl, first, last⟩
      · exact ⟨agrees.wait first.keyed later, fun _ _ => trivial⟩
      · refine ⟨⟨?_, last.tidy.access, .refl _⟩, fun _ _ => trivial⟩
        exact Inner.rebuildIndexes_exact (fun k g found => (load_grants found).2) fun k g found h among => by
          obtain ⟨member, same⟩ := load_grants found
          exact same ▸ first.fileOwned g member h among
    · exact fun _ _ _ _ _ _ _ _ _ => trivial
    · exact fun call program made => agreesTriple made
    · exact fun _ _ _ _ => trivial
  exact sound.reaches (reached.confined known)

def Section.Failed : {β : Type} → Section β → β → Prop
  | _, .registerClient _ _ _ _, value => value.isOk = false
  | _, .deleteClient _, value => value.isOk = false
  | _, .issueCode _ _ _ _ _, value => value.isOk = false
  | _, .consumeCode _ _ _ _ _ _, value => value.isOk = false
  | _, .createGrant _ _ _ _ _ _, value => value.isOk = false
  | _, .findGrant _ _ _ _, value => value.isOk = false
  | _, .rotate _ _ _ _, value => value.isOk = false
  | _, .revokeToken _ _, value => value.isOk = false
  | _, .revokeGrant _, value => value.isOk = false
  | _, .revokeUser _, value => value.isOk = false
  | _, .revokeAll, value => value.isOk = false
  | _, _, _ => False

/-- The sections that prune what has expired before anything else. -/
def Section.prunes {β : Type} : Section β → Bool
  | .registerClient .. | .issueCode .. | .consumeCode .. | .findGrant .. => true
  | _ => false

/-- What a failed write leaves: the state as it was, pruned where the section begins so. -/
def Section.kept (operation : Section β) (store : OAuthStore) (clock : Int) : OAuthStore :=
  if operation.prunes then store.pruned (operation.time clock) else store

/-- It is all the same to the section how a write comes out: it makes none. -/
def Section.Writeless (prim : Primitives) (s : OAuthStore) (clock : Int) (chance : Chance) {β : Type} (operation : Section β) : Prop :=
  ∀ written, operation.run prim s clock { chance with written } = operation.run prim s clock chance

namespace OAuthStore
variable {store : OAuthStore} {ε ρ : Type} {t : Int} {e : String}

/-- Where it would have come out otherwise, there is an error and the state is `kept`. -/
def Undone {β : Type} (kept : OAuthStore) (failed : β → Prop) (other result : β × OAuthStore) : Prop :=
  other = result ∨ (failed result.1 ∧ result.2 = kept)

theorem commit_undone (broken : chance.written = .error e) (failed : String → ε) (f : Inner → Except ε (ρ × Inner))
    (written : Except String Unit) :
    Undone store (fun value => value.isOk = false) (store.commit { chance with written } failed f) (store.commit chance failed f) := by
  unfold commit
  cases f store.inner with
  | error e => exact .inl rfl
  | ok drafted =>
    obtain ⟨r, draft⟩ := drafted
    dsimp only
    rw [broken]
    exact .inr ⟨rfl, rfl⟩

theorem registerClient_undone (broken : chance.written = .error e) (clientName : Option String) (redirectUris : List String) (source : String)
    (written : Except String Unit) : Undone (store.pruned t) (fun value => value.isOk = false)
      (store.registerClient clientName redirectUris source t { chance with written })
      (store.registerClient clientName redirectUris source t chance) := by
  unfold registerClient
  exact commit_undone broken _ _ written

theorem deleteClient_undone (broken : chance.written = .error e) (clientId : String) (written : Except String Unit) :
    Undone store (fun value => value.isOk = false) (store.deleteClient clientId { chance with written })
      (store.deleteClient clientId chance) := by
  unfold deleteClient
  exact commit_undone broken _ _ written

theorem consumeCode_undone (broken : chance.written = .error e) (code clientId redirectUri codeVerifier : String) (resource : Option String)
    (written : Except String Unit) : Undone (store.pruned t) (fun value => value.isOk = false)
      (consumeCode prim store code clientId redirectUri codeVerifier resource t { chance with written })
      (consumeCode prim store code clientId redirectUri codeVerifier resource t chance) := by
  unfold consumeCode
  dsimp only
  split
  · split
    · exact .inl rfl
    · rename_i used _
      rcases commit_undone broken id (fun d => .ok ((), d.removeGrant used.1)) written with same | ⟨-, since⟩
      · exact .inl (by rw [same])
      · exact .inr ⟨rfl, since⟩
  · exact .inl rfl

theorem createGrant_undone (broken : chance.written = .error e) (code clientId : String) (ac : AuthCode) (auth : UserAuthority)
    (scopes : List String) (at_ : Int) (written : Except String Unit) : Undone store (fun value => value.isOk = false)
      (createGrant prim store code clientId ac auth scopes at_ { chance with written })
      (createGrant prim store code clientId ac auth scopes at_ chance) := by
  unfold createGrant
  dsimp only
  split
  · exact .inl rfl
  · split
    · exact .inl rfl
    · split
      · exact .inl rfl
      · exact commit_undone broken _ _ written

theorem bind_failed {ρ' : Type} (value : Except ε ρ) (e : ε) : (value.bind fun _ => (.error e : Except ε ρ')).isOk = false := by
  cases value <;> rfl

theorem findGrant_undone (broken : chance.written = .error e) (refreshToken clientId : String) (resource : Option String)
    (written : Except String Unit) : Undone (store.pruned t) (fun value => value.isOk = false)
      (findGrant prim store refreshToken clientId resource t { chance with written })
      (findGrant prim store refreshToken clientId resource t chance) := by
  unfold findGrant
  dsimp only
  split
  · rename_i grantId _
    split
    · exact .inl rfl
    · rcases commit_undone broken TokenError.serverError (fun d => .ok ((), d.removeGrant grantId)) written with same | ⟨-, since⟩
      · exact .inl (by rw [same])
      · exact .inr ⟨bind_failed _ _, since⟩
  · split <;> exact .inl rfl

theorem rotate_undone (broken : chance.written = .error e) (grant : Grant) (auth : Option UserAuthority) (requested : Option (List String))
    (at_ : Int) (written : Except String Unit) : Undone store (fun value => value.isOk = false)
      (rotate prim store grant auth requested at_ { chance with written }) (rotate prim store grant auth requested at_ chance) := by
  unfold rotate
  dsimp only
  split
  · exact .inl rfl
  · split
    · exact .inl rfl
    · split
      · rcases commit_undone broken TokenError.serverError (fun d => .ok ((), d.removeGrant grant.id)) written with same | ⟨-, since⟩
        · exact .inl (by rw [same])
        · exact .inr ⟨bind_failed _ _, since⟩
      · split
        · exact .inl rfl
        · split
          · exact .inl rfl
          · exact commit_undone broken _ _ written

theorem issueCode_undone (broken : chance.written = .error e) (p : PendingAuth) (username : String) (source : AuthSource)
    (granted : List String) (written : Except String Unit) : Undone (store.pruned t) (fun value => value.isOk = false)
      (issueCode prim store p username source granted t { chance with written }) (issueCode prim store p username source granted t chance) := by
  unfold issueCode
  dsimp only
  split
  · exact .inl rfl
  · exact commit_undone broken _ _ written

theorem revokeToken_undone (broken : chance.written = .error e) (token : String) (clientId : Option String) (written : Except String Unit) :
    Undone store (fun value => value.isOk = false) (revokeToken prim store token clientId { chance with written })
      (revokeToken prim store token clientId chance) := by
  unfold revokeToken
  dsimp only
  split
  · exact .inl rfl
  · split
    · exact .inl rfl
    · exact commit_undone broken _ _ written

theorem revokeGrant_undone (broken : chance.written = .error e) (id : String) (written : Except String Unit) :
    Undone store (fun value => value.isOk = false) (store.revokeGrant id { chance with written }) (store.revokeGrant id chance) := by
  unfold revokeGrant
  split
  · exact .inl rfl
  · exact commit_undone broken _ _ written

theorem revokeAny_undone (broken : chance.written = .error e) (ids : List String) (written : Except String Unit) :
    Undone store (fun value => value.isOk = false) (store.revokeAny ids { chance with written }) (store.revokeAny ids chance) := by
  unfold revokeAny
  split
  · exact .inl rfl
  · exact commit_undone broken _ _ written

end OAuthStore

theorem failed_write {store : OAuthStore} {clock : Int} {e : String} (broken : chance.written = .error e) {β : Type} (operation : Section β) :
    operation.Writeless prim store clock chance ∨ (operation.Failed (operation.run prim store clock chance).1 ∧
      (operation.run prim store clock chance).2 = operation.kept store clock) := by
  by_cases undone : operation.Failed (operation.run prim store clock chance).1 ∧
      (operation.run prim store clock chance).2 = operation.kept store clock
  · exact .inr undone
  · apply Or.inl
    intro written
    have either : OAuthStore.Undone (operation.kept store clock) operation.Failed
        (operation.run prim store clock { chance with written }) (operation.run prim store clock chance) := by
      cases operation with
      | registerClient clientName redirectUris source t =>
        exact OAuthStore.registerClient_undone broken clientName redirectUris source written
      | deleteClient clientId => exact OAuthStore.deleteClient_undone broken clientId written
      | issueCode p username source granted t => exact OAuthStore.issueCode_undone broken p username source granted written
      | consumeCode code clientId redirectUri codeVerifier resource t =>
        exact OAuthStore.consumeCode_undone broken code clientId redirectUri codeVerifier resource written
      | createGrant code clientId ac auth scopes t => exact OAuthStore.createGrant_undone broken code clientId ac auth scopes t written
      | findGrant refreshToken clientId resource t => exact OAuthStore.findGrant_undone broken refreshToken clientId resource written
      | rotate grant auth requested t => exact OAuthStore.rotate_undone broken grant auth requested t written
      | revokeToken token clientId => exact OAuthStore.revokeToken_undone broken token clientId written
      | revokeGrant grantId => exact OAuthStore.revokeGrant_undone broken grantId written
      | revokeUser username => exact OAuthStore.revokeAny_undone broken _ written
      | revokeAll => exact OAuthStore.revokeAny_undone broken _ written
      | _ => exact .inl rfl
    exact either.resolve_right undone

theorem state_and_file_agree (reached : (serverSystem prim fun _ _ _ _ => True).Reaches Server.New s) :
    s.store.Agrees s.clock ∧ ∀ (chance : Chance) (e : String), chance.written = .error e → ∀ {β : Type} (operation : Section β),
      operation.Writeless prim s.store s.clock chance ∨ (operation.Failed (operation.run prim s.store s.clock chance).1 ∧
        (operation.run prim s.store s.clock chance).2 =
          if operation.prunes then s.store.pruned (operation.time s.clock) else s.store) :=
  ⟨Server.agrees_run reached, fun _ _ broken _ operation => failed_write broken operation⟩

def granted : List ServerTurn := registers ++ consents "wsc_1" ++ approves "wsp_2" ++ exchanges "wsa_5" "wsc_1"

theorem granted_lawful : ∀ turn ∈ granted, turn.Lawful (serverSystem samplePrimitives permitted) := by
  have begun : ∀ p, Call samplePrimitives (.request (Section.beginPending p) fun _ => .pure ()) := fun p => .single trivial
  simp [granted, registers, consents, approves, exchanges, asked, Turn.whole, Turn.Lawful, serverSystem, begun, Call.register, Call.approve,
    Call.exchange]

def fullDisk (index : Nat) : Chance := { chanceAt index with written := .error "No space left on device" }

theorem state_and_file_agree_sample : ∃ s : Server, (serverSystem samplePrimitives fun _ _ _ _ => True).Reaches Server.New s ∧
    (values s.store.inner.grants).length = 1 ∧ s.store.Agrees s.clock ∧
    (Section.revokeAll.run samplePrimitives s.store s.clock (fullDisk 20)).2 = s.store := by
  obtain ⟨s, reached, passed⟩ := @conduct_reaches _ _ _ _ _ (serverSystem samplePrimitives fun _ _ _ _ => True)
    (Server.serve fun _ _ _ _ => true) Server.New newServer newServer_new (serve_commits fun _ _ _ _ _ => trivial)
    granted granted_lawful (fun s => (values s.store.inner.grants).length = 1 &&
      (s.store.revokeAll (chanceAt 20)).1.isOk && !(s.store.revokeAll (fullDisk 20)).1.isOk) (by decide +kernel)
  simp only [Bool.and_eq_true, decide_eq_true_eq, Bool.not_eq_true'] at passed
  obtain ⟨⟨one, works⟩, fails⟩ := passed
  obtain ⟨agrees, failing⟩ := state_and_file_agree reached
  refine ⟨s, reached, one, agrees, ?_⟩
  rcases failing (fullDisk 20) _ rfl Section.revokeAll with writeless | ⟨-, since⟩
  · have alike := congrArg (fun result => result.1.isOk) (writeless (.ok ()))
    exact absurd (works.symm.trans (alike.trans fails)) (by simp)
  · exact since

def abandoned : List ServerTurn := registers ++ [.move fun s => some { s with clock := s.clock + unusedClientTtlSecs }]

theorem abandoned_lawful : ∀ turn ∈ abandoned, turn.Lawful (serverSystem samplePrimitives permitted) := by
  have later : (Turn.move fun s => some { s with clock := s.clock + unusedClientTtlSecs } : ServerTurn).Lawful
      (serverSystem samplePrimitives permitted) := by
    intro before after same
    cases same
    exact .inl ⟨_, by simp [unusedClientTtlSecs], rfl⟩
  simp only [abandoned, registers, List.forall_mem_append, List.forall_mem_singleton]
  refine ⟨?_, later⟩
  simp [Turn.whole, Turn.Lawful, serverSystem, Call.register]

structure Inner.Unchanged (before after : Inner) : Prop where
  clients : ∀ k : String, after.clients[k]? = before.clients[k]?
  grants : ∀ k : String, after.grants[k]? = before.grants[k]?
  refresh : ∀ h : String, after.refreshIndex[h]? = before.refreshIndex[h]?
  retired : ∀ h : String, after.retiredIndex[h]? = before.retiredIndex[h]?
  access : ∀ h : String, after.access[h]? = before.access[h]?

/-- An app registers while the disk is full, and another one is forgotten. -/
theorem failed_write_prunes : ¬∀ s : Server, (serverSystem samplePrimitives fun _ _ _ _ => True).Reaches Server.New s →
    ∀ (chance : Chance) (e : String), chance.written = .error e → ∀ {β : Type} (operation : Section β),
      operation.Writeless samplePrimitives s.store s.clock chance ∨ (operation.Failed (operation.run samplePrimitives s.store s.clock chance).1 ∧
        s.store.inner.Unchanged (operation.run samplePrimitives s.store s.clock chance).2.inner) := by
  intro unchanged
  obtain ⟨s, reached, passed⟩ := @conduct_reaches _ _ _ _ _ (serverSystem samplePrimitives fun _ _ _ _ => True)
    (Server.serve fun _ _ _ _ => true) Server.New newServer newServer_new (serve_commits fun _ _ _ _ _ => trivial)
    abandoned abandoned_lawful (fun s => s.clock = unusedClientTtlSecs && s.store.inner.clients.contains "wsc_1" &&
      !(s.store.registerClient none ["https://b.example.com/cb"] "198.51.100.2" unusedClientTtlSecs (fullDisk 3)).1.isOk &&
      (s.store.registerClient none ["https://b.example.com/cb"] "198.51.100.2" unusedClientTtlSecs (chanceAt 3)).1.isOk &&
      !(s.store.registerClient none ["https://b.example.com/cb"] "198.51.100.2" unusedClientTtlSecs (fullDisk 3)).2.inner.clients.contains "wsc_1")
    (by decide +kernel)
  simp only [Bool.and_eq_true, decide_eq_true_eq, Bool.not_eq_true'] at passed
  obtain ⟨⟨⟨⟨-, before⟩, fails⟩, works⟩, after⟩ := passed
  rcases unchanged s reached (fullDisk 3) _ rfl (.registerClient none ["https://b.example.com/cb"] "198.51.100.2" unusedClientTtlSecs) with
    writeless | ⟨-, same⟩
  · have alike := congrArg (fun result => result.1.isOk) (writeless (.ok ()))
    exact absurd (works.symm.trans (alike.trans fails)) (by simp)
  · have kept := same.clients "wsc_1"
    rw [TreeMap.contains_eq_isSome_getElem?] at before after
    rw [← kept] at before
    exact absurd (before.symm.trans after) (by simp)

end Mcp
