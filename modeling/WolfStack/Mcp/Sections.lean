import WolfStack.Mcp.Finality

/-! What each section does to the invariant. -/

namespace Mcp
open Effects
open Std (TreeMap)
attribute [local irreducible] Inner.prune

variable {settle detect : Prop} {owners : String → Option String}

namespace OAuthStore
variable {s : OAuthStore} {ε ρ : Type} {t : Int} {chance : Chance} {prim : Primitives}

theorem still_quiet (tidy : s.inner.Tidy owners) : Quiet owners t s s := ⟨s.inner, .refl _, tidy, .inl rfl⟩

theorem pruned_quiet (tidy : s.inner.Tidy owners) : Quiet owners t s (s.pruned t) :=
  ⟨s.inner.prune t, Inner.prune_keeps t tidy, Inner.prune_tidy t tidy, .inl rfl⟩

theorem memory_quiet {middle inner : Inner} (first : Inner.Keeps (fun expiry => expiry ≤ t) s.inner middle) (tidy : middle.Tidy owners)
    (grants : inner.grants = middle.grants) (retired : inner.retiredIndex = middle.retiredIndex)
    (access : ∀ (h : String) a, inner.access[h]? = some a → middle.access[h]? = some a)
    (codes : ∀ (h : String) c, inner.codes[h]? = some c → middle.codes[h]? = some c) (clients : inner.clients = middle.clients) :
    Quiet owners t s { s with inner } := by
  have second : Inner.Keeps (fun expiry => expiry ≤ t) middle inner :=
    .same grants access codes fun k c found => ⟨c, clients ▸ found, rfl⟩
  exact ⟨inner, first.trans second, tidy.same grants retired access, .inl rfl⟩

theorem commit_quiet {middle : OAuthStore} {failed : String → ε} {f : Inner → Except ε (ρ × Inner)}
    (first : Inner.Keeps (fun expiry => expiry ≤ t) s.inner middle.inner) (tidy : middle.inner.Tidy owners) (file : middle.file = s.file)
    (fewer : ∀ r draft, f middle.inner = .ok (r, draft) → Inner.Keeps (fun _ => True) middle.inner draft ∧ draft.Tidy owners) :
    Quiet owners t s (middle.commit chance failed f).2 := by
  have same : middle = ⟨middle.inner, s.file⟩ := by rw [← file]
  unfold commit
  split
  · exact ⟨middle.inner, first, tidy, .inl same⟩
  · rename_i r draft drafted
    obtain ⟨kept, last⟩ := fewer r draft drafted
    split
    · exact ⟨middle.inner, first, tidy, .inl same⟩
    · exact ⟨middle.inner, first, tidy, .inr ⟨kept, last, rfl⟩⟩

theorem removal_quiet (middle : OAuthStore) {failed : String → ε} {r : ρ} (first : Inner.Keeps (fun expiry => expiry ≤ t) s.inner middle.inner)
    (tidy : middle.inner.Tidy owners) (file : middle.file = s.file) (id : String) :
    Quiet owners t s (middle.commit chance failed fun d => .ok (r, d.removeGrant id)).2 := by
  refine commit_quiet first tidy file fun r draft drafted => ?_
  cases drafted
  exact ⟨Inner.removeGrant_keeps id, Inner.removeGrant_tidy tidy id⟩

theorem beginPending_quiet (tidy : s.inner.Tidy owners) (p : PendingAuth) : Quiet owners t s (s.beginPending p t chance).2 := by
  unfold beginPending
  split
  · exact still_quiet tidy
  · dsimp only
    split
    · exact pruned_quiet tidy
    · split
      · exact pruned_quiet tidy
      · split
        · exact pruned_quiet tidy
        · exact memory_quiet (Inner.prune_keeps t tidy) (Inner.prune_tidy t tidy) rfl rfl (fun _ _ found => found) (fun _ _ found => found) rfl

theorem takePending_quiet (tidy : s.inner.Tidy owners) (id : String) : Quiet owners t s (s.takePending id t).2 :=
  memory_quiet (Inner.prune_keeps t tidy) (Inner.prune_tidy t tidy) rfl rfl (fun _ _ found => found) (fun _ _ found => found) rfl

theorem erase_get {V : Type} {table : TreeMap String V} {k h : String} {v : V} (found : (table.erase k)[h]? = some v) :
    table[h]? = some v := by
  rw [TreeMap.getElem?_erase] at found
  split at found
  · cases found
  · exact found

theorem deleteClient_quiet (tidy : s.inner.Tidy owners) (clientId : String) : Quiet owners t s (s.deleteClient clientId chance).2 := by
  refine commit_quiet (.refl _) tidy rfl fun r draft drafted => ?_
  cases drafted
  have first : Inner.Keeps (fun _ => True) s.inner { s.inner with clients := s.inner.clients.erase clientId } :=
    .same rfl (fun _ _ found => found) (fun _ _ found => found) fun k c found => ⟨c, erase_get found, rfl⟩
  have kept : Inner.Tidy owners { s.inner with clients := s.inner.clients.erase clientId } := tidy.same rfl rfl fun _ _ found => found
  exact ⟨first.trans (Inner.removeGrants_keeps _), Inner.removeGrants_tidy kept _⟩

theorem consumeCode_quiet (tidy : s.inner.Tidy owners) (code clientId redirectUri codeVerifier : String)
    (resource : Option String) : Quiet owners t s (consumeCode prim s code clientId redirectUri codeVerifier resource t chance).2 := by
  have first := Inner.prune_keeps t tidy
  have last := Inner.prune_tidy t tidy
  unfold consumeCode
  dsimp only
  split
  · split
    · exact pruned_quiet tidy
    · exact removal_quiet (s.pruned t) first last rfl _
  · have erased : Quiet owners t s ⟨{ (s.inner.prune t) with codes := (s.inner.prune t).codes.erase (prim.secretHash "code" code) }, s.file⟩ :=
      memory_quiet first last rfl rfl (fun _ _ found => found) (fun _ _ found => erase_get found) rfl
    split
    · exact erased
    · split
      · exact erased
      · split
        · exact erased
        · split <;> exact erased

theorem findGrant_quiet (tidy : s.inner.Tidy owners) (refreshToken clientId : String) (resource : Option String) :
    Quiet owners t s (findGrant prim s refreshToken clientId resource t chance).2 := by
  unfold findGrant
  dsimp only
  split
  · split
    · exact pruned_quiet tidy
    · exact removal_quiet (s.pruned t) (Inner.prune_keeps t tidy) (Inner.prune_tidy t tidy) rfl _
  · split <;> exact pruned_quiet tidy

theorem validateAccess_quiet (tidy : s.inner.Tidy owners) (token resource : String) (now : Int) :
    Quiet owners t s (validateAccess prim s token resource now).2 := by
  unfold validateAccess
  dsimp only
  split
  · exact still_quiet tidy
  · split
    · exact memory_quiet (.refl _) tidy rfl rfl (fun _ _ found => erase_get found) (fun _ _ found => found) rfl
    · split
      · exact still_quiet tidy
      · split
        · exact still_quiet tidy
        · rename_i g found
          exact ⟨_, Inner.touch_keeps found, Inner.touch_tidy tidy found, .inl rfl⟩

theorem revokeToken_quiet (tidy : s.inner.Tidy owners) (token : String) (clientId : Option String) :
    Quiet owners t s (revokeToken prim s token clientId chance).2 := by
  unfold revokeToken
  dsimp only
  split
  · exact still_quiet tidy
  · split
    · exact still_quiet tidy
    · exact removal_quiet s (.refl _) tidy rfl _

theorem revokeGrant_quiet (tidy : s.inner.Tidy owners) (id : String) : Quiet owners t s (s.revokeGrant id chance).2 := by
  unfold revokeGrant
  split
  · exact still_quiet tidy
  · refine commit_quiet (.refl _) tidy rfl fun r draft drafted => ?_
    cases drafted
    exact ⟨Inner.removeGrant_keeps id, Inner.removeGrant_tidy tidy id⟩

theorem revokeAny_quiet (tidy : s.inner.Tidy owners) (ids : List String) : Quiet owners t s (s.revokeAny ids chance).2 := by
  unfold revokeAny
  split
  · exact still_quiet tidy
  · refine commit_quiet (.refl _) tidy rfl fun r draft drafted => ?_
    cases drafted
    exact ⟨Inner.removeGrants_keeps ids, Inner.removeGrants_tidy tidy ids⟩

theorem commit_ok {failed : String → ε} {f : Inner → Except ε (ρ × Inner)} {r : ρ} (ok : (s.commit chance failed f).1 = .ok r) :
    ∃ draft, f s.inner = .ok (r, draft) ∧ (s.commit chance failed f).2 = ⟨draft, draft.snapshot⟩ := by
  unfold commit at ok ⊢
  split at ok
  · cases ok
  · rename_i r' draft drafted
    rw [drafted]
    cases written : chance.written with
    | error e =>
      rw [written] at ok
      cases ok
    | ok _ =>
      rw [written] at ok
      cases ok
      exact ⟨draft, rfl, rfl⟩

theorem revokeAny_lost {ids : List String} {n : Nat} (ok : (s.revokeAny ids chance).1 = .ok n) {id : String}
    (lost : id ∈ ids ∨ s.inner.grants[id]? = none) : (s.revokeAny ids chance).2.inner.grants[id]? = none := by
  unfold revokeAny at ok ⊢
  split at ok
  · rename_i empty
    rw [if_pos empty]
    rcases lost with among | gone
    · rw [empty] at among
      cases among
    · exact gone
  · rename_i some_
    rw [if_neg some_]
    obtain ⟨draft, drafted, there⟩ := commit_ok ok
    rw [there]
    cases drafted
    rw [Inner.removeGrants_grants]
    rcases lost with among | gone
    · rw [if_pos among]
    · rw [gone, ite_self]

theorem revokeUser_lost (tidy : s.inner.Tidy owners) {username : String} {n : Nat} (ok : (s.revokeUser username chance).1 = .ok n)
    {id : String} (mine : ∀ g, s.inner.grants[id]? = some g → g.username = username) :
    (s.revokeUser username chance).2.inner.grants[id]? = none := by
  refine revokeAny_lost ok ?_
  cases found : s.inner.grants[id]? with
  | none => exact .inr rfl
  | some g =>
    refine .inl (List.mem_map.mpr ⟨g, List.mem_filter.mpr ⟨mem_values.mpr ⟨id, found⟩, ?_⟩, tidy.keyed id g found⟩)
    simpa using mine g found

theorem revokeAll_lost {n : Nat} (ok : (s.revokeAll chance).1 = .ok n) (id : String) :
    (s.revokeAll chance).2.inner.grants[id]? = none := by
  refine revokeAny_lost ok ?_
  cases found : s.inner.grants[id]? with
  | none => exact .inr rfl
  | some g =>
    left
    rw [TreeMap.mem_keys, TreeMap.mem_iff_isSome_getElem?, found]
    rfl

theorem revokeGrant_lost {id : String} {value : Bool} (ok : (s.revokeGrant id chance).1 = .ok value) :
    (s.revokeGrant id chance).2.inner.grants[id]? = none := by
  unfold revokeGrant at ok ⊢
  split
  · rename_i absent
    rw [TreeMap.contains_eq_isSome_getElem?] at absent
    exact Option.isSome_eq_false_iff.mp absent |> Option.isNone_iff_eq_none.mp
  · rename_i there
    rw [if_neg there] at ok
    obtain ⟨draft, drafted, after⟩ := commit_ok ok
    rw [after]
    cases drafted
    rw [Inner.removeGrant_grants, if_pos rfl]

theorem deleteClient_lost (tidy : s.inner.Tidy owners) (keys : ∀ (k : String) c, s.inner.clients[k]? = some c → c.clientId = k)
    {clientId : String} {value : Bool} (ok : (s.deleteClient clientId chance).1 = .ok value) :
    (∀ id : String, (∀ g, s.inner.grants[id]? = some g → g.clientId = clientId) → (s.deleteClient clientId chance).2.inner.grants[id]? = none) ∧
      (s.deleteClient clientId chance).2.inner.clients[clientId]? = none ∧
      ∀ k ∈ (s.deleteClient clientId chance).2.file.clients, k.clientId ≠ clientId := by
  obtain ⟨draft, drafted, after⟩ := commit_ok ok
  rw [deleteClient, after]
  cases drafted
  refine ⟨fun id mine => ?_, ?_, fun k member => ?_⟩
  · rw [Inner.removeGrants_grants]
    cases found : s.inner.grants[id]? with
    | none => rw [ite_self]
    | some g =>
      refine if_pos (List.mem_map.mpr ⟨g, List.mem_filter.mpr ⟨mem_values.mpr ⟨id, found⟩, ?_⟩, tidy.keyed id g found⟩)
      simpa using mine g found
  · cases now : ((Inner.removeGrants _ { s.inner with clients := s.inner.clients.erase clientId }).clients[clientId]? : Option Client) with
    | none => rfl
    | some c =>
      obtain ⟨old, there, -⟩ := (Inner.removeGrants_keeps _).clients clientId c now
      rw [TreeMap.getElem?_erase_self] at there
      cases there
  · obtain ⟨key, found⟩ := Inner.mem_snapshot_clients.mp member
    obtain ⟨old, there, same⟩ := (Inner.removeGrants_keeps _).clients key k found
    have named := keys key old (erase_get there)
    intro mine
    rw [← named, same, mine, TreeMap.getElem?_erase_self] at there
    cases there

end OAuthStore
end Mcp
