import WolfStack.Mcp.Agreement

/-! What becomes of a code that is presented more than once? The first presentation takes it
out, the grant is noted with it only when it is there, and a presentation in between finds
neither. -/

namespace Mcp
open Effects
open Std (TreeMap)
attribute [local irreducible] Inner.prune

variable {prim : Primitives} {call : CallId} {chance : Chance} {names : List String}

/-! ### What other sections leave of codes and grants -/

namespace Inner
variable {d middle other : Inner} {t : Int}

/-- But for codes that have just been drawn nothing is added to the codes, the used codes and the grants. -/
structure Fades (names : List String) (d other : Inner) : Prop where
  codes : ∀ (h : String) c, other.codes[h]? = some c → (∃ old, d.codes[h]? = some old) ∨ h ∈ names
  used : ∀ (h : String) entry, other.usedCodes[h]? = some entry → d.usedCodes[h]? = some entry
  grants : ∀ k : String, d.grants[k]? = none → other.grants[k]? = none

theorem Fades.refl (d : Inner) : d.Fades names d := ⟨fun _ c found => .inl ⟨c, found⟩, fun _ _ found => found, fun _ none_ => none_⟩

theorem Fades.trans (first : d.Fades names middle) (second : middle.Fades names other) : d.Fades names other where
  codes h c found := by
    rcases second.codes h c found with ⟨old, there⟩ | new
    · exact first.codes h old there
    · exact .inr new
  used h entry found := first.used h entry (second.used h entry found)
  grants k none_ := second.grants k (first.grants k none_)

theorem Fades.same (codes : other.codes = d.codes) (used : other.usedCodes = d.usedCodes) (grants : other.grants = d.grants) :
    d.Fades names other :=
  ⟨fun _ c found => .inl ⟨c, codes ▸ found⟩, fun _ _ found => used ▸ found, fun _ none_ => grants ▸ none_⟩

theorem removeGrant_fades (id : String) : d.Fades names (d.removeGrant id) where
  codes h c found := .inl ⟨c, (removeGrant_keeps id).codes h c found⟩
  used h entry found := by
    unfold removeGrant at found
    split at found <;> exact found
  grants k none_ := by rw [removeGrant_grants, none_, ite_self]

theorem removeGrants_fades (ids : List String) : d.Fades names (d.removeGrants ids) := by
  induction ids generalizing d with
  | nil => exact .refl d
  | cons id rest ih => exact (removeGrant_fades id).trans ih

theorem prune_fades (t : Int) (d : Inner) : d.Fades names (d.prune t) := by
  obtain ⟨clients, shape, -⟩ := prune_shape t d
  have live : d.Fades names (d.live t) :=
    ⟨fun _ c found => .inl ⟨c, filter_get found⟩, fun _ _ found => filter_get found, fun _ none_ => none_⟩
  rw [shape]
  exact (live.trans (removeGrants_fades _)).trans (.same rfl rfl rfl)

end Inner

namespace OAuthStore
variable {s middle : OAuthStore} {ε ρ : Type} {t : Int}

structure Fades (names : List String) (before after : OAuthStore) : Prop where
  inner : before.inner.Fades names after.inner
  file : ∀ f ∈ after.file.grants, f ∈ before.file.grants ∨ ∃ k : String, after.inner.grants[k]? = some f

theorem Fades.memory {inner : Inner} (fades : s.inner.Fades names inner) : s.Fades names { s with inner } := ⟨fades, fun _ member => .inl member⟩

theorem still_fades : s.Fades names s := .memory (.refl _)

theorem pruned_fades : s.Fades names (s.pruned t) := .memory (Inner.prune_fades t _)

theorem commit_fades {failed : String → ε} {f : Inner → Except ε (ρ × Inner)} (fades : s.Fades names middle)
    (drafts : ∀ r draft, f middle.inner = .ok (r, draft) → middle.inner.Fades names draft) :
    s.Fades names (middle.commit chance failed f).2 := by
  rcases Consistent.commit_cases middle chance failed f with ⟨e, done⟩ | ⟨r, draft, drafted, done⟩
  · rw [done]
    exact fades
  · rw [done]
    exact ⟨fades.inner.trans (drafts r draft drafted), fun f member => .inr (Inner.mem_snapshot.mp member)⟩

theorem removal_fades {failed : String → ε} {r : ρ} (fades : s.Fades names middle) (id : String) :
    s.Fades names (middle.commit chance failed fun d => .ok (r, d.removeGrant id)).2 := by
  apply commit_fades fades
  intro r draft drafted
  cases drafted
  exact Inner.removeGrant_fades id

theorem registerClient_fades (clientName : Option String) (redirectUris : List String) (source : String) :
    s.Fades names (s.registerClient clientName redirectUris source t chance).2 := by
  apply commit_fades pruned_fades
  intro r draft drafted
  dsimp only at drafted
  split at drafted
  · cases drafted
  · rename_i room found
    cases drafted
    have kept : (s.pruned t).inner.Fades names room := by
      split at found
      · obtain ⟨victim, -, rfl⟩ := Option.map_eq_some_iff.mp found
        exact .same rfl rfl rfl
      · cases found
        exact .refl _
    exact kept.trans (.same rfl rfl rfl)

theorem deleteClient_fades (clientId : String) : s.Fades names (s.deleteClient clientId chance).2 := by
  apply commit_fades still_fades
  intro r draft drafted
  cases drafted
  have first : s.inner.Fades names { s.inner with clients := s.inner.clients.erase clientId } := .same rfl rfl rfl
  exact first.trans (Inner.removeGrants_fades _)

theorem beginPending_fades (p : PendingAuth) : s.Fades names (s.beginPending p t chance).2 := by
  unfold beginPending
  split
  · exact still_fades
  · dsimp only
    split
    · exact pruned_fades
    · split
      · exact pruned_fades
      · split
        · exact pruned_fades
        · exact .memory ((Inner.prune_fades t _).trans (.same rfl rfl rfl))

theorem issueCode_fades (p : PendingAuth) (username : String) (source : AuthSource) (granted : List String) :
    s.Fades (chance.names prim) (issueCode prim s p username source granted t chance).2 := by
  unfold issueCode
  dsimp only
  split
  · exact pruned_fades
  · apply commit_fades pruned_fades
    intro r draft drafted
    cases drafted
    have approved : (s.pruned t).inner.Fades (chance.names prim) (approveClient p.clientId t (s.pruned t).inner) := by
      unfold approveClient
      split
      · exact .refl _
      · exact .same rfl rfl rfl
    refine approved.trans ⟨fun h c found => ?_, fun _ _ found => found, fun _ none_ => none_⟩
    rw [Inner.insert_get] at found
    split at found
    · rename_i same
      exact .inr (by simp [same, Chance.names])
    · exact .inl ⟨c, found⟩

theorem consumeCode_fades (code clientId redirectUri codeVerifier : String) (resource : Option String) :
    s.Fades names (consumeCode prim s code clientId redirectUri codeVerifier resource t chance).2 := by
  unfold consumeCode
  dsimp only
  split
  · split
    · exact pruned_fades
    · exact removal_fades pruned_fades _
  · have erased : s.Fades names ⟨{ (s.inner.prune t) with codes := (s.inner.prune t).codes.erase (prim.secretHash "code" code) }, s.file⟩ :=
      .memory ((Inner.prune_fades t _).trans ⟨fun _ c found => .inl ⟨c, erase_get found⟩, fun _ _ found => found, fun _ none_ => none_⟩)
    split
    · exact erased
    · split
      · exact erased
      · split
        · exact erased
        · split <;> exact erased

theorem findGrant_fades (refreshToken clientId : String) (resource : Option String) :
    s.Fades names (findGrant prim s refreshToken clientId resource t chance).2 := by
  unfold findGrant
  dsimp only
  split
  · split
    · exact pruned_fades
    · exact removal_fades pruned_fades _
  · split <;> exact pruned_fades

theorem rotate_fades (grant : Grant) (auth : Option UserAuthority) (requested : Option (List String)) (at_ : Int) :
    s.Fades names (rotate prim s grant auth requested at_ chance).2 := by
  unfold rotate
  dsimp only
  split
  · exact still_fades
  · split
    · exact still_fades
    · split
      · exact removal_fades still_fades _
      · split
        · exact still_fades
        · split
          · exact still_fades
          · apply commit_fades still_fades
            intro r draft drafted
            split at drafted
            · cases drafted
            · rename_i g there
              cases drafted
              refine ⟨fun _ c found => .inl ⟨c, found⟩, fun _ _ found => found, fun k none_ => ?_⟩
              have apart : k ≠ grant.id := by
                rintro rfl
                rw [none_] at there
                cases there
              have rotated : ∀ g : Grant, (s.inner.grants.insert grant.id g)[k]? = none := fun g => by
                rw [Inner.insert_get, if_neg apart, none_]
              exact rotated _

theorem validateAccess_fades (token resource : String) (now : Int) : s.Fades names (validateAccess prim s token resource now).2 := by
  unfold validateAccess
  dsimp only
  split
  · exact still_fades
  · split
    · exact .memory (.same rfl rfl rfl)
    · split
      · exact still_fades
      · split
        · exact still_fades
        · rename_i info _ _ _ _ g there
          refine .memory ⟨fun _ c found => .inl ⟨c, found⟩, fun _ _ found => found, fun k none_ => ?_⟩
          rw [Inner.insert_get, if_neg, none_]
          intro same
          rw [← same, none_] at there
          cases there

theorem revokeToken_fades (token : String) (clientId : Option String) : s.Fades names (revokeToken prim s token clientId chance).2 := by
  unfold revokeToken
  dsimp only
  split
  · exact still_fades
  · split
    · exact still_fades
    · exact removal_fades still_fades _

theorem revokeGrant_fades (id : String) : s.Fades names (s.revokeGrant id chance).2 := by
  unfold revokeGrant
  split
  · exact still_fades
  · apply commit_fades still_fades
    intro r draft drafted
    cases drafted
    exact Inner.removeGrant_fades id

theorem revokeAny_fades (ids : List String) : s.Fades names (s.revokeAny ids chance).2 := by
  unfold revokeAny
  split
  · exact still_fades
  · apply commit_fades still_fades
    intro r draft drafted
    cases drafted
    exact Inner.removeGrants_fades ids

theorem createGrant_adds (code clientId : String) (ac : AuthCode) (auth : UserAuthority) (scopes : List String) (at_ : Int) :
    ((createGrant prim s code clientId ac auth scopes at_ chance).1.isOk = false ∧
        (createGrant prim s code clientId ac auth scopes at_ chance).2 = s) ∨
      ((createGrant prim s code clientId ac auth scopes at_ chance).1.isOk = true ∧ ∃ g : Grant, ∃ until_, ∃ draft : Inner,
        (createGrant prim s code clientId ac auth scopes at_ chance).2 = ⟨draft, draft.snapshot⟩ ∧ draft.codes = s.inner.codes ∧
          draft.usedCodes = s.inner.usedCodes.insert (prim.secretHash "code" code) (chance.randomToken "wsg_", until_) ∧
          draft.grants = s.inner.grants.insert (chance.randomToken "wsg_") g) := by
  unfold createGrant
  dsimp only
  split
  · exact .inl ⟨rfl, rfl⟩
  · rename_i c _
    split
    · exact .inl ⟨rfl, rfl⟩
    · split
      · exact .inl ⟨rfl, rfl⟩
      · rcases Consistent.commit_cases s chance TokenError.serverError _ with ⟨e, done⟩ | ⟨r, draft, drafted, done⟩
        · rw [done]
          exact .inl ⟨rfl, rfl⟩
        · rw [done]
          cases drafted
          exact .inr ⟨rfl, newGrant prim c.clientName clientId ac auth scopes at_ chance, _, _, rfl, rfl, rfl, rfl⟩

end OAuthStore
end Mcp
