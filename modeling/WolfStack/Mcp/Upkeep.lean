import WolfStack.Mcp.OAuth

/-! What pruning, removal and reloading leave of the store's tables. -/

namespace Mcp
open Std (TreeMap)

namespace Inner
variable {d : Inner} {k h : String} {g : Grant} {owners : String → Option String}

/-- The tables agree with the grants they are about, and no refresh hash has two owners. -/
structure Tidy (owners : String → Option String) (d : Inner) : Prop where
  keyed : ∀ (k : String) g, d.grants[k]? = some g → g.id = k
  access : ∀ (h : String) a, d.access[h]? = some a → ∃ g, d.grants[a.grantId]? = some g
  owned : ∀ (k : String) g, d.grants[k]? = some g → ∀ h ∈ g.refreshHash :: g.retiredRefreshHashes, owners h = some k
  retired : ∀ (k : String) g, d.grants[k]? = some g → ∀ h ∈ g.retiredRefreshHashes, d.retiredIndex[h]? = some k

/-- Nothing is added. Grants stay as they are but for their last use, or are gone for a reason. -/
structure Keeps (gone : Int → Prop) (before after : Inner) : Prop where
  grants : ∀ (k : String) g, after.grants[k]? = some g → ∃ old t, before.grants[k]? = some old ∧ g = { old with lastUsedAt := t }
  dropped : ∀ (k : String) g, before.grants[k]? = some g → after.grants[k]? = none → gone g.refreshExpiresAt
  access : ∀ (h : String) a, after.access[h]? = some a → before.access[h]? = some a
  codes : ∀ (h : String) c, after.codes[h]? = some c → before.codes[h]? = some c
  clients : ∀ (k : String) c, after.clients[k]? = some c → ∃ old, before.clients[k]? = some old ∧ old.clientId = c.clientId

namespace Keeps
variable {gone : Int → Prop} {before middle after : Inner}

theorem refl (d : Inner) : Keeps gone d d where
  grants k g found := ⟨g, g.lastUsedAt, found, rfl⟩
  dropped k g found lost := by
    rw [found] at lost
    cases lost
  access _ _ found := found
  codes _ _ found := found
  clients _ c found := ⟨c, found, rfl⟩

theorem trans (first : Keeps gone before middle) (second : Keeps gone middle after) : Keeps gone before after where
  grants k g found := by
    obtain ⟨old, t, there, rfl⟩ := second.grants k g found
    obtain ⟨older, u, earlier, rfl⟩ := first.grants k old there
    exact ⟨older, t, earlier, rfl⟩
  dropped k g found lost := by
    cases between : middle.grants[k]? with
    | none => exact first.dropped k g found between
    | some kept =>
      obtain ⟨old, t, there, rfl⟩ := first.grants k kept between
      rw [found] at there
      cases there
      have past := second.dropped k _ between lost
      exact past
  access h a found := first.access h a (second.access h a found)
  codes h c found := first.codes h c (second.codes h c found)
  clients k c found := by
    obtain ⟨old, there, same⟩ := second.clients k c found
    obtain ⟨older, earlier, alike⟩ := first.clients k old there
    exact ⟨older, earlier, alike.trans same⟩

theorem weaken {wider : Int → Prop} (keeps : Keeps gone before after) (implies : ∀ t, gone t → wider t) :
    Keeps wider before after :=
  ⟨keeps.grants, fun k g found lost => implies _ (keeps.dropped k g found lost), keeps.access, keeps.codes, keeps.clients⟩

end Keeps

theorem removeGrant_grants (id : String) : (d.removeGrant id).grants[k]? = if k = id then none else d.grants[k]? := by
  unfold removeGrant
  split
  · rename_i missing
    split
    · rename_i same
      rw [same, missing]
    · rfl
  · rw [TreeMap.getElem?_erase]
    by_cases same : k = id
    · simp [same]
    · simp [same, Ne.symm same]

theorem removeGrants_grants (ids : List String) : (d.removeGrants ids).grants[k]? = if k ∈ ids then none else d.grants[k]? := by
  induction ids generalizing d with
  | nil => simp [removeGrants]
  | cons id rest ih =>
    have step : d.removeGrants (id :: rest) = (d.removeGrant id).removeGrants rest := rfl
    rw [step, ih, removeGrant_grants]
    by_cases here : k = id <;> by_cases later : k ∈ rest <;> simp [here, later]

theorem eraseAll_get {hashes : List String} {index : TreeMap String String} (apart : h ∉ hashes) :
    (hashes.foldl (fun index r => index.erase r) index)[h]? = index[h]? := by
  induction hashes generalizing index with
  | nil => rfl
  | cons first rest ih =>
    have ⟨other, later⟩ := List.ne_and_not_mem_of_not_mem_cons apart
    rw [List.foldl_cons, ih later, TreeMap.getElem?_erase]
    simp [Ne.symm other]

theorem removeGrant_access {id : String} {a : AccessInfo} (found : (d.removeGrant id).access[h]? = some a) :
    d.access[h]? = some a ∧ ((∃ g, d.grants[id]? = some g) → a.grantId ≠ id) := by
  unfold removeGrant at found
  split at found
  · rename_i missing
    refine ⟨found, fun there => ?_⟩
    obtain ⟨g, there⟩ := there
    rw [missing] at there
    cases there
  · simp only [TreeMap.getElem?_filter', Option.filter_eq_some_iff, decide_eq_true_eq] at found
    exact ⟨found.1, fun _ => found.2⟩

theorem removeGrant_keeps (id : String) : Keeps (fun _ => True) d (d.removeGrant id) where
  grants k g found := by
    rw [removeGrant_grants] at found
    split at found
    · cases found
    · exact ⟨g, g.lastUsedAt, found, rfl⟩
  dropped _ _ _ _ := trivial
  access h a found := (removeGrant_access found).1
  codes h c found := by
    unfold removeGrant at found
    split at found <;> exact found
  clients k c found := by
    unfold removeGrant at found
    split at found <;> exact ⟨c, found, rfl⟩

theorem removeGrant_tidy (tidy : d.Tidy owners) (id : String) : (d.removeGrant id).Tidy owners := by
  have still : ∀ (k : String) g, (d.removeGrant id).grants[k]? = some g → k ≠ id ∧ d.grants[k]? = some g := by
    intro k g found
    rw [removeGrant_grants] at found
    split at found
    · cases found
    · rename_i apart
      exact ⟨apart, found⟩
  constructor
  · exact fun k g found => tidy.keyed k g (still k g found).2
  · intro h a found
    have ⟨there, apart⟩ := removeGrant_access found
    obtain ⟨g, present⟩ := tidy.access h a there
    refine ⟨g, ?_⟩
    rw [removeGrant_grants, if_neg]
    · exact present
    · intro same
      exact apart ⟨g, same ▸ present⟩ same
  · exact fun k g found => tidy.owned k g (still k g found).2
  · intro k g found h member
    obtain ⟨other, there⟩ := still k g found
    have indexed := tidy.retired k g there h member
    unfold removeGrant
    split
    · exact indexed
    · rename_i removed present
      rw [eraseAll_get, indexed]
      intro shared
      have mine := tidy.owned k g there h (List.mem_cons_of_mem _ member)
      have its := tidy.owned id removed present h (List.mem_cons_of_mem _ shared)
      rw [mine] at its
      exact other (Option.some.inj its)

theorem removeGrants_tidy (tidy : d.Tidy owners) (ids : List String) : (d.removeGrants ids).Tidy owners := by
  induction ids generalizing d with
  | nil => exact tidy
  | cons id rest ih => exact ih (removeGrant_tidy tidy id)

theorem removeGrants_keeps (ids : List String) : Keeps (fun _ => True) d (d.removeGrants ids) := by
  induction ids generalizing d with
  | nil => exact .refl d
  | cons id rest ih => exact (removeGrant_keeps id).trans ih

theorem Tidy.same {other : Inner} (tidy : d.Tidy owners) (grants : other.grants = d.grants) (retired : other.retiredIndex = d.retiredIndex)
    (access : ∀ (h : String) a, other.access[h]? = some a → d.access[h]? = some a) : other.Tidy owners where
  keyed := grants ▸ tidy.keyed
  access h a found := grants ▸ tidy.access h a (access h a found)
  owned := grants ▸ tidy.owned
  retired := grants ▸ retired ▸ tidy.retired

theorem Keeps.same {gone : Int → Prop} {other : Inner} (grants : other.grants = d.grants)
    (access : ∀ (h : String) a, other.access[h]? = some a → d.access[h]? = some a)
    (codes : ∀ (h : String) c, other.codes[h]? = some c → d.codes[h]? = some c)
    (clients : ∀ (k : String) c, other.clients[k]? = some c → ∃ old, d.clients[k]? = some old ∧ old.clientId = c.clientId) : Keeps gone d other where
  grants k g found := ⟨g, g.lastUsedAt, grants ▸ found, rfl⟩
  dropped k g found lost := by
    rw [grants, found] at lost
    cases lost
  access := access
  codes := codes
  clients := clients

def touch (id : String) (g : Grant) (t : Int) (d : Inner) : Inner := { d with grants := d.grants.insert id { g with lastUsedAt := t } }

theorem insert_get {V : Type} {table : TreeMap String V} {id : String} {v : V} :
    (table.insert id v)[k]? = if k = id then some v else table[k]? := by
  rw [TreeMap.getElem?_insert]
  by_cases same : k = id
  · simp [same]
  · simp [same, Ne.symm same]

theorem touch_grants {id : String} {t : Int} (found : d.grants[id]? = some g) {other : Grant} (there : (d.touch id g t).grants[k]? = some other) :
    ∃ old u, d.grants[k]? = some old ∧ other = { old with lastUsedAt := u } := by
  simp only [touch, insert_get] at there
  split at there
  · rename_i same
    cases there
    exact ⟨g, t, same ▸ found, rfl⟩
  · exact ⟨other, other.lastUsedAt, there, rfl⟩

theorem touch_keeps {gone : Int → Prop} {id : String} {t : Int} (found : d.grants[id]? = some g) : Keeps gone d (d.touch id g t) where
  grants _ _ there := touch_grants found there
  dropped k other there lost := by
    simp only [touch, insert_get] at lost
    split at lost
    · cases lost
    · rw [there] at lost
      cases lost
  access _ _ there := there
  codes _ _ there := there
  clients _ c there := ⟨c, there, rfl⟩

theorem touch_tidy {id : String} {t : Int} (tidy : d.Tidy owners) (found : d.grants[id]? = some g) : (d.touch id g t).Tidy owners where
  keyed k other there := by
    obtain ⟨old, u, present, rfl⟩ := touch_grants found there
    exact tidy.keyed k old present
  access h a there := by
    obtain ⟨other, present⟩ := tidy.access h a there
    simp only [touch, insert_get]
    split
    · exact ⟨_, rfl⟩
    · exact ⟨other, present⟩
  owned k other there := by
    obtain ⟨old, u, present, rfl⟩ := touch_grants found there
    exact tidy.owned k old present
  retired k other there := by
    obtain ⟨old, u, present, rfl⟩ := touch_grants found there
    exact tidy.retired k old present

def live (t : Int) (d : Inner) : Inner := { d with
  codes := d.codes.filter fun _ c => t < c.expiresAt
  usedCodes := d.usedCodes.filter fun _ used => t < used.2
  access := d.access.filter fun _ a => t < a.expiresAt
  pending := d.pending.filter fun _ p => t < p.createdAt + pendingTtlSecs }

def expired (t : Int) (d : Inner) : List String := ((values d.grants).filter fun g => g.refreshExpiresAt ≤ t).map fun g => g.id

theorem filter_get {V : Type} {table : TreeMap String V} {p : String → V → Bool} {v : V} (found : (table.filter p)[k]? = some v) :
    table[k]? = some v := by
  rw [TreeMap.getElem?_filter', Option.filter_eq_some_iff] at found
  exact found.1

theorem mem_expired {t : Int} (keyed : ∀ (k : String) g, d.grants[k]? = some g → g.id = k) :
    k ∈ d.expired t ↔ ∃ g, d.grants[k]? = some g ∧ g.refreshExpiresAt ≤ t := by
  simp only [expired, List.mem_map, List.mem_filter, mem_values, decide_eq_true_eq]
  constructor
  · rintro ⟨g, ⟨⟨k, found⟩, past⟩, rfl⟩
    exact ⟨g, keyed k g found ▸ found, past⟩
  · rintro ⟨g, found, past⟩
    exact ⟨g, ⟨⟨k, found⟩, past⟩, keyed k g found⟩

theorem dropClients_get {stale : List Client} {table : TreeMap String Client} {c : Client}
    (found : (stale.foldl (fun clients c => clients.erase c.clientId) table)[k]? = some c) : table[k]? = some c := by
  induction stale generalizing table with
  | nil => exact found
  | cons first rest ih =>
    have there := ih found
    rw [TreeMap.getElem?_erase] at there
    split at there
    · cases there
    · exact there

theorem prune_shape (t : Int) (d : Inner) : ∃ clients, d.prune t = { (d.live t).removeGrants (d.expired t) with clients } ∧
    ∀ (k : String) c, clients[k]? = some c → ((d.live t).removeGrants (d.expired t)).clients[k]? = some c :=
  ⟨_, rfl, fun _ _ found => dropClients_get found⟩

theorem prune_grants (t : Int) (keyed : ∀ (k : String) g, d.grants[k]? = some g → g.id = k) :
    (d.prune t).grants[k]? = d.grants[k]?.filter fun g => t < g.refreshExpiresAt := by
  obtain ⟨clients, shape, -⟩ := prune_shape t d
  rw [shape]
  simp only [removeGrants_grants]
  have member := mem_expired (t := t) (k := k) keyed
  cases found : d.grants[k]? with
  | none => simp [live, found]
  | some g =>
    by_cases past : g.refreshExpiresAt ≤ t
    · rw [if_pos (member.mpr ⟨g, found, past⟩), Option.filter_some_neg]
      simpa using past
    · rw [if_neg (fun there => ?_)]
      · have later : t < g.refreshExpiresAt := Int.not_le.mp past
        rw [Option.filter_some_pos (by simpa using later)]
        exact found
      · obtain ⟨other, same, gone⟩ := member.mp there
        rw [found] at same
        cases same
        exact past gone

theorem live_tidy (t : Int) (tidy : d.Tidy owners) : (d.live t).Tidy owners :=
  tidy.same rfl rfl fun _ _ found => filter_get found

theorem prune_tidy (t : Int) (tidy : d.Tidy owners) : (d.prune t).Tidy owners := by
  obtain ⟨clients, shape, -⟩ := prune_shape t d
  rw [shape]
  exact (removeGrants_tidy (live_tidy t tidy) _).same rfl rfl fun _ _ found => found

theorem prune_keeps (t : Int) (tidy : d.Tidy owners) : Keeps (fun expiry => expiry ≤ t) d (d.prune t) := by
  obtain ⟨clients, shape, fewer⟩ := prune_shape t d
  have loose : Keeps (fun _ => True) d (d.prune t) := by
    rw [shape]
    have first : Keeps (fun _ => True) d (d.live t) :=
      .same rfl (fun _ _ found => filter_get found) (fun _ _ found => filter_get found) fun _ c found => ⟨c, found, rfl⟩
    refine (first.trans (removeGrants_keeps _)).trans (.same rfl (fun _ _ found => found) (fun _ _ found => found) ?_)
    exact fun k c found => ⟨c, fewer k c found, rfl⟩
  refine ⟨loose.grants, fun k g found lost => ?_, loose.access, loose.codes, loose.clients⟩
  rw [prune_grants t tidy.keyed, found] at lost
  simpa using lost

theorem indexed_get {entries : List (String × String)} {id : String} (member : (h, id) ∈ entries)
    (single : ∀ other, (h, other) ∈ entries → other = id) : (indexed entries)[h]? = some id := by
  have general : ∀ (entries : List (String × String)) (index : TreeMap String String),
      (∀ other, (h, other) ∈ entries → other = id) → ((h, id) ∈ entries ∨ index[h]? = some id) →
        (entries.foldl (fun index entry => index.insert entry.1 entry.2) index)[h]? = some id := by
    intro entries
    induction entries with
    | nil =>
      intro index _ found
      simpa using found
    | cons entry rest ih =>
      intro index single found
      refine ih _ (fun other there => single other (List.mem_cons_of_mem _ there)) ?_
      by_cases same : entry.1 = h
      · right
        have value := single entry.2 (by simp [← same])
        rw [TreeMap.getElem?_insert]
        simp [same, value]
      · rcases found with there | held
        · rcases List.mem_cons.mp there with rfl | later
          · exact absurd rfl same
          · exact .inl later
        · right
          rw [TreeMap.getElem?_insert]
          simpa [same] using held
  exact general entries ∅ single (.inl member)

theorem rebuildIndexes_tidy (keyed : ∀ (k : String) g, d.grants[k]? = some g → g.id = k)
    (access : ∀ (h : String) a, d.access[h]? = some a → ∃ g, d.grants[a.grantId]? = some g)
    (owned : ∀ (k : String) g, d.grants[k]? = some g → ∀ h ∈ g.refreshHash :: g.retiredRefreshHashes, owners h = some k) :
    d.rebuildIndexes.Tidy owners := by
  refine ⟨keyed, access, owned, fun k g found h member => ?_⟩
  have named := keyed k g found
  refine indexed_get ?_ fun other there => ?_
  · simp only [List.mem_flatMap, List.mem_map, Prod.mk.injEq]
    exact ⟨g, mem_values.mpr ⟨k, found⟩, h, member, rfl, named⟩
  · simp only [List.mem_flatMap, List.mem_map, Prod.mk.injEq, mem_values] at there
    obtain ⟨g', ⟨k', found'⟩, h', member', rfl, rfl⟩ := there
    have mine := owned k g found _ (List.mem_cons_of_mem _ member)
    have its := owned k' g' found' _ (List.mem_cons_of_mem _ member')
    rw [keyed k' g' found']
    rw [mine] at its
    exact (Option.some.inj its).symm

theorem mem_snapshot : g ∈ d.snapshot.grants ↔ ∃ k : String, d.grants[k]? = some g := by
  simp [snapshot, mem_values]

theorem mem_snapshot_clients {c : Client} : c ∈ d.snapshot.clients ↔ ∃ k : String, d.clients[k]? = some c := by
  simp [snapshot, mem_values]

theorem filled_get {V : Type} (key : V → String) (list : List V) :
    (∀ (k : String) v, (list.foldl (fun table v => table.insert (key v) v) (∅ : TreeMap String V))[k]? = some v → v ∈ list ∧ key v = k) ∧
      ∀ v ∈ list, ∃ w, (list.foldl (fun table v => table.insert (key v) v) (∅ : TreeMap String V))[key v]? = some w := by
  have general : ∀ (list done : List V) (table : TreeMap String V),
      (∀ (k : String) v, table[k]? = some v → v ∈ done ∧ key v = k) → (∀ v ∈ done, ∃ w, table[key v]? = some w) →
        (∀ (k : String) v, (list.foldl (fun table v => table.insert (key v) v) table)[k]? = some v → v ∈ done ++ list ∧ key v = k) ∧
          ∀ v ∈ done ++ list, ∃ w, (list.foldl (fun table v => table.insert (key v) v) table)[key v]? = some w := by
    intro list
    induction list with
    | nil =>
      intro done table sound complete
      rw [List.append_nil]
      exact ⟨sound, complete⟩
    | cons first rest ih =>
      intro done table sound complete
      have moved : done ++ first :: rest = (done ++ [first]) ++ rest := by simp
      rw [moved]
      refine ih (done ++ [first]) (table.insert (key first) first) ?_ ?_
      · intro k v found
        rw [TreeMap.getElem?_insert] at found
        split at found
        · rename_i same
          cases found
          exact ⟨by simp, Std.LawfulEqCmp.compare_eq_iff_eq.mp same⟩
        · have ⟨there, named⟩ := sound k v found
          exact ⟨List.mem_append_left _ there, named⟩
      · intro v member
        rw [TreeMap.getElem?_insert]
        split
        · exact ⟨first, rfl⟩
        · rename_i apart
          rcases List.mem_append.mp member with earlier | here
          · exact complete v earlier
          · simp only [List.mem_singleton] at here
            subst here
            simp at apart
  have start := general list [] ∅ (by simp) (by simp)
  simpa using start

end Inner
end Mcp
