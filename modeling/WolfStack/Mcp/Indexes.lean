import WolfStack.Mcp.Runs

/-! When do the indexes hold exactly what the grants say, and when do two copies of the state
differ only in what nobody would miss? -/

namespace Mcp
open Std (TreeMap)

namespace Inner
variable {d other : Inner} {k h id : String} {g : Grant} {owners : String → Option String} {t : Int}

/-! ### Exact indexes -/

/-- A current hash, or a retired one, leads to the grant that has it, and no other hash leads anywhere. -/
structure Exact (d : Inner) : Prop where
  refresh : ∀ h id : String, d.refreshIndex[h]? = some id ↔ ∃ g, d.grants[id]? = some g ∧ g.refreshHash = h
  retired : ∀ h id : String, d.retiredIndex[h]? = some id ↔ ∃ g, d.grants[id]? = some g ∧ h ∈ g.retiredRefreshHashes

def forget (g : Grant) : Grant := { g with lastUsedAt := 0 }

def Regards (d other : Inner) : Prop := ∀ k : String, other.grants[k]?.map forget = d.grants[k]?.map forget

theorem Regards.found (regards : d.Regards other) (found : other.grants[k]? = some g) :
    ∃ old, d.grants[k]? = some old ∧ forget g = forget old := by
  have same := regards k
  rw [found, Option.map_some] at same
  obtain ⟨old, there, alike⟩ := Option.map_eq_some_iff.mp same.symm
  exact ⟨old, there, alike.symm⟩

theorem Regards.symm (regards : d.Regards other) : other.Regards d := fun k => (regards k).symm

theorem forget_hashes {old : Grant} (same : forget g = forget old) :
    g.refreshHash = old.refreshHash ∧ g.retiredRefreshHashes = old.retiredRefreshHashes := by
  have current := congrArg Grant.refreshHash same
  have retired := congrArg Grant.retiredRefreshHashes same
  exact ⟨current, retired⟩

theorem Regards.hash_iff (regards : d.Regards other) (tells : Grant → Prop) (blind : ∀ g old : Grant, forget g = forget old → (tells g ↔ tells old)) :
    (∃ g, other.grants[id]? = some g ∧ tells g) ↔ ∃ g, d.grants[id]? = some g ∧ tells g := by
  constructor
  · intro ⟨g, found, holds⟩
    obtain ⟨old, there, same⟩ := regards.found found
    exact ⟨old, there, (blind g old same).mp holds⟩
  · intro ⟨g, found, holds⟩
    obtain ⟨old, there, same⟩ := regards.symm.found found
    exact ⟨old, there, (blind g old same).mp holds⟩

theorem Exact.same (exact_ : d.Exact) (regards : d.Regards other) (refresh : other.refreshIndex = d.refreshIndex)
    (retired : other.retiredIndex = d.retiredIndex) : other.Exact where
  refresh h id := by
    rw [refresh, exact_.refresh, regards.hash_iff fun g => g.refreshHash = h]
    intro g old same
    rw [(forget_hashes same).1]
  retired h id := by
    rw [retired, exact_.retired, regards.hash_iff fun g => h ∈ g.retiredRefreshHashes]
    intro g old same
    rw [(forget_hashes same).2]

theorem eraseAll_gone {hashes : List String} {index : TreeMap String String} (among : h ∈ hashes) :
    (hashes.foldl (fun index r => index.erase r) index)[h]? = none := by
  induction hashes generalizing index with
  | nil => cases among
  | cons first rest ih =>
    rw [List.foldl_cons]
    by_cases later : h ∈ rest
    · exact ih later
    · rcases List.mem_cons.mp among with rfl | again
      · rw [eraseAll_get later, TreeMap.getElem?_erase_self]
      · exact absurd again later

theorem removeGrant_exact (exact_ : d.Exact) (tidy : d.Tidy owners) (id : String) : (d.removeGrant id).Exact := by
  cases removed : d.grants[id]? with
  | none =>
    have still : d.removeGrant id = d := by rw [removeGrant, removed]
    rw [still]
    exact exact_
  | some g =>
    have owned := tidy.owned id g removed
    have left : ∀ (k : String) other, (d.removeGrant id).grants[k]? = some other ↔ k ≠ id ∧ d.grants[k]? = some other := by
      intro k other
      rw [removeGrant_grants]
      by_cases same : k = id
      · simp [same]
      · simp [same]
    constructor
    · intro h k
      have index : (d.removeGrant id).refreshIndex[h]? = if h = g.refreshHash then none else d.refreshIndex[h]? := by
        simp only [removeGrant, removed, TreeMap.getElem?_erase]
        by_cases same : h = g.refreshHash
        · simp [same]
        · simp [same, Ne.symm same]
      rw [index]
      constructor
      · intro found
        split at found
        · cases found
        · rename_i apart
          obtain ⟨other, there, hash⟩ := (exact_.refresh h k).mp found
          refine ⟨other, (left k other).mpr ⟨?_, there⟩, hash⟩
          rintro rfl
          rw [removed] at there
          cases there
          exact apart hash.symm
      · rintro ⟨other, there, rfl⟩
        obtain ⟨apart, held⟩ := (left k other).mp there
        rw [if_neg]
        · exact (exact_.refresh _ k).mpr ⟨other, held, rfl⟩
        · intro same
          have mine := tidy.owned k other held _ List.mem_cons_self
          rw [same, owned _ List.mem_cons_self] at mine
          exact apart (Option.some.inj mine).symm
    · intro h k
      have index : (d.removeGrant id).retiredIndex[h]? = if h ∈ g.retiredRefreshHashes then none else d.retiredIndex[h]? := by
        simp only [removeGrant, removed]
        split
        · rename_i among
          exact eraseAll_gone among
        · rename_i apart
          exact eraseAll_get apart
      rw [index]
      constructor
      · intro found
        split at found
        · cases found
        · rename_i apart
          obtain ⟨other, there, hash⟩ := (exact_.retired h k).mp found
          refine ⟨other, (left k other).mpr ⟨?_, there⟩, hash⟩
          rintro rfl
          rw [removed] at there
          cases there
          exact apart hash
      · rintro ⟨other, there, among⟩
        obtain ⟨apart, held⟩ := (left k other).mp there
        rw [if_neg]
        · exact (exact_.retired h k).mpr ⟨other, held, among⟩
        · intro same
          have mine := tidy.owned k other held h (List.mem_cons_of_mem _ among)
          rw [owned h (List.mem_cons_of_mem _ same)] at mine
          exact apart (Option.some.inj mine).symm

theorem removeGrants_exact (exact_ : d.Exact) (tidy : d.Tidy owners) (ids : List String) : (d.removeGrants ids).Exact := by
  induction ids generalizing d with
  | nil => exact exact_
  | cons id rest ih => exact ih (removeGrant_exact exact_ tidy id) (removeGrant_tidy tidy id)

theorem prune_exact (exact_ : d.Exact) (tidy : d.Tidy owners) (t : Int) : (d.prune t).Exact := by
  obtain ⟨clients, shape, -⟩ := prune_shape t d
  have first : (d.live t).Exact := exact_.same (fun _ => rfl) rfl rfl
  have second := removeGrants_exact first (live_tidy t tidy) (d.expired t)
  rw [shape]
  exact second.same (fun _ => rfl) rfl rfl

theorem of_indexed_get {entries : List (String × String)} (found : (indexed entries)[h]? = some id) : (h, id) ∈ entries := by
  have general : ∀ (entries : List (String × String)) (index : TreeMap String String),
      (entries.foldl (fun index entry => index.insert entry.1 entry.2) index)[h]? = some id → (h, id) ∈ entries ∨ index[h]? = some id := by
    intro entries
    induction entries with
    | nil => exact fun index found => .inr found
    | cons entry rest ih =>
      intro index found
      rcases ih _ found with later | here
      · exact .inl (List.mem_cons_of_mem _ later)
      · rw [insert_get] at here
        split at here
        · rename_i same
          have value : entry = (h, id) := Prod.ext same.symm (Option.some.inj here)
          exact .inl (value ▸ List.mem_cons_self)
        · exact .inr here
  rcases general entries ∅ found with among | nowhere
  · exact among
  · rw [TreeMap.getElem?_emptyc] at nowhere
    cases nowhere

theorem rebuildIndexes_exact (keyed : ∀ (k : String) g, d.grants[k]? = some g → g.id = k)
    (owned : ∀ (k : String) g, d.grants[k]? = some g → ∀ h ∈ g.refreshHash :: g.retiredRefreshHashes, owners h = some k) :
    d.rebuildIndexes.Exact := by
  constructor
  · intro h id
    constructor
    · intro found
      obtain ⟨g, member, same⟩ := List.mem_map.mp (of_indexed_get found)
      obtain ⟨k, there⟩ := mem_values.mp member
      cases same
      exact ⟨g, keyed k g there ▸ there, rfl⟩
    · rintro ⟨g, found, rfl⟩
      apply indexed_get
      · exact List.mem_map.mpr ⟨g, mem_values.mpr ⟨id, found⟩, by rw [keyed id g found]⟩
      · intro other there
        obtain ⟨g', member, same⟩ := List.mem_map.mp there
        obtain ⟨k, held⟩ := mem_values.mp member
        injection same with hash named
        have its := owned k g' held _ List.mem_cons_self
        rw [hash, owned id g found _ List.mem_cons_self] at its
        rw [← named, keyed k g' held]
        exact (Option.some.inj its).symm
  · intro h id
    constructor
    · intro found
      obtain ⟨g, member, inner⟩ := List.mem_flatMap.mp (of_indexed_get found)
      obtain ⟨r, among, same⟩ := List.mem_map.mp inner
      obtain ⟨k, there⟩ := mem_values.mp member
      cases same
      exact ⟨g, keyed k g there ▸ there, among⟩
    · rintro ⟨g, found, among⟩
      apply indexed_get
      · refine List.mem_flatMap.mpr ⟨g, mem_values.mpr ⟨id, found⟩, List.mem_map.mpr ⟨h, among, ?_⟩⟩
        rw [keyed id g found]
      · intro other there
        obtain ⟨g', member, inner⟩ := List.mem_flatMap.mp there
        obtain ⟨r, among', same⟩ := List.mem_map.mp inner
        obtain ⟨k, held⟩ := mem_values.mp member
        injection same with hash named
        have its := owned k g' held r (List.mem_cons_of_mem _ among')
        rw [hash, owned id g found h (List.mem_cons_of_mem _ among)] at its
        rw [← named, keyed k g' held]
        exact (Option.some.inj its).symm

theorem insert_exact (exact_ : d.Exact) (absent : d.grants[g.id]? = none) (young : g.retiredRefreshHashes = [])
    (grants : other.grants = d.grants.insert g.id g) (refresh : other.refreshIndex = d.refreshIndex.insert g.refreshHash g.id)
    (retired : other.retiredIndex = d.retiredIndex) (single : ∀ (k : String) old, d.grants[k]? = some old → old.refreshHash ≠ g.refreshHash) :
    other.Exact := by
  constructor
  · intro h id
    rw [refresh, grants, insert_get, insert_get]
    by_cases hash : h = g.refreshHash <;> by_cases named : id = g.id
    · simp [hash, named]
    · rw [if_pos hash, if_neg named]
      constructor
      · intro same
        exact absurd (Option.some.inj same).symm named
      · rintro ⟨old, there, same⟩
        exact absurd (same.trans hash) (single id old there)
    · rw [if_neg hash, if_pos named]
      constructor
      · intro found
        obtain ⟨old, there, -⟩ := (exact_.refresh h id).mp found
        rw [named, absent] at there
        cases there
      · rintro ⟨old, same, current⟩
        cases same
        exact absurd current.symm hash
    · rw [if_neg hash, if_neg named]
      exact exact_.refresh h id
  · intro h id
    rw [retired, grants, insert_get]
    by_cases named : id = g.id
    · rw [if_pos named, exact_.retired, named, absent]
      simp [young]
    · rw [if_neg named]
      exact exact_.retired h id

structure Alike (d other : Inner) : Prop where
  clients : ∀ k : String, other.clients[k]? = d.clients[k]?
  grants : d.Regards other

theorem Alike.refl (d : Inner) : d.Alike d := ⟨fun _ => rfl, fun _ => rfl⟩

theorem Alike.symm (alike : d.Alike other) : other.Alike d := ⟨fun k => (alike.clients k).symm, alike.grants.symm⟩

theorem Alike.trans {last : Inner} (first : d.Alike other) (second : other.Alike last) : d.Alike last :=
  ⟨fun k => (second.clients k).trans (first.clients k), fun k => (second.grants k).trans (first.grants k)⟩

structure Keyed (d : Inner) : Prop where
  grants : ∀ (k : String) g, d.grants[k]? = some g → g.id = k
  clients : ∀ (k : String) c, d.clients[k]? = some c → c.clientId = k

theorem inUse_iff {c : Client} : d.inUse c = true ↔ ∃ k : String, ∃ g, d.grants[k]? = some g ∧ g.clientId = c.clientId := by
  simp only [inUse, List.any_eq_true, mem_values, decide_eq_true_eq]
  constructor
  · intro ⟨g, ⟨k, found⟩, same⟩
    exact ⟨k, g, found, same⟩
  · intro ⟨k, g, found, same⟩
    exact ⟨g, ⟨k, found⟩, same⟩

theorem Regards.inUse (regards : d.Regards other) {c : Client} (used : other.inUse c = true) : d.inUse c = true := by
  obtain ⟨k, g, found, mine⟩ := inUse_iff.mp used
  obtain ⟨old, there, same⟩ := regards.found found
  have client := congrArg Grant.clientId same
  exact inUse_iff.mpr ⟨k, old, there, client.symm.trans mine⟩

theorem Regards.inUse_eq (regards : d.Regards other) (c : Client) : other.inUse c = d.inUse c :=
  Bool.eq_iff_iff.mpr ⟨regards.inUse, regards.symm.inUse⟩

def stale (t : Int) (d : Inner) (c : Client) : Bool := c.approvedAt.isNone && c.createdAt + unusedClientTtlSecs ≤ t && !d.inUse c

theorem dropClients_eq (ids : List Client) (table : TreeMap String Client) :
    (ids.foldl (fun clients c => clients.erase c.clientId) table)[k]? = if k ∈ ids.map (fun c => c.clientId) then none else table[k]? := by
  induction ids generalizing table with
  | nil => simp
  | cons first rest ih =>
    rw [List.foldl_cons, ih, TreeMap.getElem?_erase]
    by_cases later : k ∈ rest.map (fun c => c.clientId)
    · simp [later]
    · by_cases same : k = first.clientId
      · simp [same]
      · simp [later, same, Ne.symm same]

theorem removeGrants_clients (ids : List String) : (d.removeGrants ids).clients = d.clients := by
  induction ids generalizing d with
  | nil => rfl
  | cons id rest ih =>
    have step : d.removeGrants (id :: rest) = (d.removeGrant id).removeGrants rest := rfl
    rw [step, ih]
    unfold removeGrant
    split <;> rfl

theorem prune_clients (t : Int) (keyed : d.Keyed) : (d.prune t).clients[k]? = d.clients[k]?.filter fun c => !stale t (d.prune t) c := by
  have shape : (d.prune t).clients[k]? = if k ∈ ((values d.clients).filter (stale t (d.prune t))).map (fun c => c.clientId) then none
      else d.clients[k]? := by
    have folded : (d.prune t).clients = ((values ((d.live t).removeGrants (d.expired t)).clients).filter (stale t (d.prune t))).foldl
        (fun clients c => clients.erase c.clientId) ((d.live t).removeGrants (d.expired t)).clients := rfl
    have untouched : (d.live t).clients = d.clients := rfl
    rw [folded, dropClients_eq, removeGrants_clients, untouched]
  rw [shape]
  cases found : d.clients[k]? with
  | none => simp
  | some c =>
    have member : k ∈ ((values d.clients).filter (stale t (d.prune t))).map (fun c => c.clientId) ↔ stale t (d.prune t) c = true := by
      simp only [List.mem_map, List.mem_filter, mem_values]
      constructor
      · rintro ⟨other, ⟨⟨key, there⟩, old⟩, rfl⟩
        rw [keyed.clients key other there, there] at found
        cases found
        exact old
      · intro old
        exact ⟨c, ⟨⟨k, found⟩, old⟩, keyed.clients k c found⟩
    by_cases old : stale t (d.prune t) c = true
    · rw [if_pos (member.mpr old), Option.filter_some_neg]
      simp [old]
    · rw [if_neg fun among => old (member.mp among), Option.filter_some_pos]
      simp [old]

theorem prune_keyed (t : Int) (keyed : d.Keyed) : (d.prune t).Keyed where
  grants k g found := by
    rw [prune_grants t keyed.grants, Option.filter_eq_some_iff] at found
    exact keyed.grants k g found.1
  clients k c found := by
    rw [prune_clients t keyed, Option.filter_eq_some_iff] at found
    exact keyed.clients k c found.1

theorem filter_forget (entry : Option Grant) (t : Int) :
    (entry.filter fun g => decide (t < g.refreshExpiresAt)).map forget = (entry.map forget).filter fun g => decide (t < g.refreshExpiresAt) := by
  cases entry with
  | none => rfl
  | some g =>
    have expiry : (forget g).refreshExpiresAt = g.refreshExpiresAt := rfl
    by_cases late : t < g.refreshExpiresAt
    · rw [Option.filter_some_pos (by simpa using late), Option.map_some, Option.filter_some_pos (by simpa [expiry] using late)]
    · rw [Option.filter_some_neg (by simpa using late), Option.map_some, Option.filter_some_neg (by simpa [expiry] using late), Option.map_none]

theorem Alike.prune (alike : d.Alike other) (keyed : d.Keyed) (its : other.Keyed) (t : Int) : (d.prune t).Alike (other.prune t) := by
  have grants : (d.prune t).Regards (other.prune t) := by
    intro k
    rw [prune_grants t keyed.grants, prune_grants t its.grants, filter_forget, filter_forget, alike.grants k]
  refine ⟨fun k => ?_, grants⟩
  have same : (fun c => !stale t (other.prune t) c) = fun c => !stale t (d.prune t) c := by
    funext c
    rw [stale, stale, grants.inUse_eq]
  rw [prune_clients t keyed, prune_clients t its, same, alike.clients k]

theorem filter_wider {V : Type} {wide narrow : V → Bool} (entry : Option V) (implies : ∀ v, narrow v = true → wide v = true) :
    (entry.filter wide).filter narrow = entry.filter narrow := by
  cases entry with
  | none => rfl
  | some v =>
    by_cases kept : wide v = true
    · rw [Option.filter_some_pos kept]
    · have dropped : ¬narrow v = true := fun here => kept (implies v here)
      rw [Option.filter_some_neg (by simpa using kept), Option.filter_some_neg (by simpa using dropped)]
      rfl

theorem prune_prune (keyed : d.Keyed) {u : Int} (later : t ≤ u) : (d.prune u).Alike ((d.prune t).prune u) := by
  have once := prune_keyed t keyed
  have grants : (d.prune u).Regards ((d.prune t).prune u) := by
    intro k
    rw [prune_grants u once.grants, prune_grants t keyed.grants, prune_grants u keyed.grants, filter_wider]
    intro g late
    simp only [decide_eq_true_eq] at late ⊢
    exact Int.lt_of_le_of_lt later late
  refine ⟨fun k => ?_, grants⟩
  rw [prune_clients u once, prune_clients t keyed, prune_clients u keyed]
  have same : (fun c => !stale u ((d.prune t).prune u) c) = fun c => !stale u (d.prune u) c := by
    funext c
    rw [stale, stale, grants.inUse_eq]
  rw [same, filter_wider]
  intro c kept
  rw [Bool.not_eq_true'] at kept ⊢
  rw [← Bool.not_eq_true] at kept ⊢
  intro old
  apply kept
  simp only [stale, Bool.and_eq_true, decide_eq_true_eq, Bool.not_eq_true'] at old ⊢
  obtain ⟨⟨unapproved, since⟩, unused⟩ := old
  refine ⟨⟨unapproved, Int.le_trans since later⟩, ?_⟩
  rw [← Bool.not_eq_true] at unused ⊢
  intro used
  apply unused
  obtain ⟨k, g, found, mine⟩ := inUse_iff.mp used
  rw [prune_grants u keyed.grants, Option.filter_eq_some_iff, decide_eq_true_eq] at found
  refine inUse_iff.mpr ⟨k, g, ?_, mine⟩
  rw [prune_grants t keyed.grants, Option.filter_eq_some_iff, decide_eq_true_eq]
  exact ⟨found.1, Int.lt_of_le_of_lt later found.2⟩

theorem load_keyed (file : Persisted) : (Inner.load file).Keyed := ⟨fun _ _ found => (load_grants found).2, fun _ _ found => (load_clients found).2⟩

theorem load_snapshot (keyed : d.Keyed) : d.Alike (Inner.load d.snapshot) := by
  have read : ∀ {V : Type} (key : V → String) (list : List V) (table : TreeMap String V), (∀ v, v ∈ list ↔ ∃ k : String, table[k]? = some v) →
      (∀ (k : String) v, table[k]? = some v → key v = k) → ∀ k : String,
        (list.foldl (fun table v => table.insert (key v) v) (∅ : TreeMap String V))[k]? = table[k]? := by
    intro V key list table listed own k
    obtain ⟨only, all⟩ := filled_get key list
    cases found : table[k]? with
    | none =>
      cases there : (list.foldl (fun table v => table.insert (key v) v) (∅ : TreeMap String V))[k]? with
      | none => rfl
      | some v =>
        obtain ⟨member, named⟩ := only k v there
        obtain ⟨key_, held⟩ := (listed v).mp member
        rw [← own key_ v held, named, found] at held
        cases held
    | some v =>
      obtain ⟨w, there⟩ := all v ((listed v).mpr ⟨k, found⟩)
      rw [own k v found] at there
      obtain ⟨member, named⟩ := only k w there
      obtain ⟨key_, held⟩ := (listed w).mp member
      rw [← own key_ w held, named, found] at held
      rw [there, Option.some.inj held]
  constructor
  · exact read (fun c : Client => c.clientId) _ _ (fun c => mem_snapshot_clients) keyed.clients
  · intro k
    exact congrArg (Option.map forget) (read (fun g : Grant => g.id) _ _ (fun g => mem_snapshot) keyed.grants k)

end Inner
end Mcp
