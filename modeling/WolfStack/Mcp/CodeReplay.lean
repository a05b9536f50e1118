import WolfStack.Mcp.Codes

/-! Does a code that was replayed leave anything behind? It does where the replay falls between
the sections of the exchange that took the code. -/

namespace Mcp
open Effects
open Std (TreeMap)
attribute [local irreducible] Inner.prune

variable {prim : Primitives} {call : CallId} {chance : Chance}

/-- The server, with the codes that exchanges have in hand, the grant that came of each code, and
the codes that were presented again while that could be known. Nothing reads the last three. -/
structure Watch where
  server : Server
  inHand : List (CallId × String)
  products : List (String × String)
  replayed : List String

namespace Watch

def drop (w : Watch) (call : CallId) : List (CallId × String) := w.inHand.filter fun entry => entry.1 ≠ call

def observe (prim : Primitives) (call : CallId) (chance : Chance) (before : Inner) (w : Watch) : {β : Type} → Section β → β → Watch
  | _, .consumeCode code _ _ _ _ t, value =>
    let h := prim.secretHash "code" code
    if (before.prune t).codes.contains h then if value.isOk then { w with inHand := (call, h) :: w.drop call } else w
    else if (before.prune t).usedCodes.contains h || w.inHand.any (fun entry => entry.2 = h) then { w with replayed := h :: w.replayed }
    else w
  | _, .authority _ _ wanted, auth =>
    if auth.any fun a => wanted.any fun scope => a.allowedScopes.contains scope then w else { w with inHand := w.drop call }
  | _, .createGrant code _ _ _ _ _, value =>
    if value.isOk then { w with
      inHand := w.drop call
      products := (prim.secretHash "code" code, chance.randomToken "wsg_") :: w.products }
    else { w with inHand := w.drop call }
  | _, _, _ => w

def perform (prim : Primitives) (call : CallId) (w : Watch) (chance : Chance) {β : Type} (operation : Section β) : β × Watch :=
  let (value, server) := w.server.perform prim call chance operation
  (value, { w with server }.observe prim call chance w.server.store.inner operation value)

def restart (w : Watch) : Watch := { w with
  server := w.server.restart
  inHand := [] }

/-- No exchange has begun. -/
structure New (w : Watch) : Prop where
  server : w.server.New
  inHand : w.inHand = []
  products : w.products = []
  replayed : w.replayed = []

end Watch

abbrev WatchPolicy := Watch → Chance → {β : Type} → Section β → Prop

def watchSystem (prim : Primitives) (permitted : WatchPolicy) : System Watch Section CallId Unit where
  moves before after := (∃ clock, before.server.clock ≤ clock ∧ after = { before with server := { before.server with clock } }) ∨
    after = before.restart
  bodies _ := { program | Call prim program }
  commits call _ before operation value after := before.server.boot = call.1 ∧ ∃ chance, before.server.Fresh prim chance ∧
    permitted before chance operation ∧ (value, after) = before.perform prim call chance operation
  stops _ _ := False

structure OAuthStore.Dead (s : OAuthStore) (id : String) : Prop where
  grants : s.inner.grants[id]? = none
  access : ∀ (h : String) a, s.inner.access[h]? = some a → a.grantId ≠ id
  refresh : ∀ h : String, s.inner.refreshIndex[h]? ≠ some id

/-- At most one grant comes of a code, and none is left when the code was presented again and all
exchanges of it are over. -/
structure Watch.Spent (w : Watch) : Prop where
  once : (w.products.map Prod.fst).Nodup
  dead : ∀ h ∈ w.replayed, (∀ entry ∈ w.inHand, entry.2 ≠ h) → ∀ id, (h, id) ∈ w.products → w.server.store.Dead id

namespace Watch

def Seen (w : Watch) (h : String) : Prop := h ∈ w.products.map Prod.fst ∨ h ∈ w.inHand.map Prod.snd ∨ h ∈ w.replayed

structure Traced (w : Watch) : Prop where
  once : (w.products.map Prod.fst).Nodup
  sole : (w.inHand.map Prod.snd).Nodup
  codes : ∀ (h : String) c, w.server.store.inner.codes[h]? = some c → ¬w.Seen h
  held : ∀ entry ∈ w.inHand, entry.2 ∉ w.products.map Prod.fst
  used : ∀ (h : String) entry, w.server.store.inner.usedCodes[h]? = some entry → (h, entry.1) ∈ w.products
  lost : ∀ h ∈ w.replayed, ∀ id, (h, id) ∈ w.products →
    w.server.store.inner.grants[id]? = none ∧ ∀ f ∈ w.server.store.file.grants, f.id ≠ id
  named : ∀ h, w.Seen h → h ∈ w.server.named
  ids : ∀ h id, (h, id) ∈ w.products → id ∈ w.server.named

variable {w : Watch}

theorem New.traced (new : w.New) : w.Traced := by
  obtain ⟨server, inHand, products, replayed⟩ := new
  have used : ∀ h : String, w.server.store.inner.usedCodes[h]? = none := by
    intro h
    rw [server.store]
    exact TreeMap.getElem?_emptyc
  constructor <;> simp [Seen, inHand, products, replayed, used]

theorem Traced.wait (traced : w.Traced) (clock : Int) : Traced { w with server := { w.server with clock } } :=
  ⟨traced.once, traced.sole, traced.codes, traced.held, traced.used, traced.lost, traced.named, traced.ids⟩

theorem Traced.restart (traced : w.Traced) : w.restart.Traced where
  once := traced.once
  sole := List.nodup_nil
  codes h c found := absurd (found.symm.trans TreeMap.getElem?_emptyc) (Option.some_ne_none c)
  held entry member := by cases member
  used h entry found := absurd (found.symm.trans TreeMap.getElem?_emptyc) (Option.some_ne_none entry)
  lost h among id product := by
    obtain ⟨-, file⟩ := traced.lost h among id product
    refine ⟨?_, file⟩
    cases found : w.restart.server.store.inner.grants[id]? with
    | none => rfl
    | some g =>
      obtain ⟨member, same⟩ := load_grants found
      exact absurd same (file g member)
  named h seen := by
    apply traced.named h
    rcases seen with product | impossible | again
    · exact .inl product
    · cases impossible
    · exact .inr (.inr again)
  ids := traced.ids

theorem Seen.of_drop {h : String} (seen : Seen { w with inHand := w.drop call } h) : w.Seen h := by
  rcases seen with product | hand | again
  · exact .inl product
  · obtain ⟨entry, member, same⟩ := List.mem_map.mp hand
    exact .inr (.inl (List.mem_map.mpr ⟨entry, (List.mem_filter.mp member).1, same⟩))
  · exact .inr (.inr again)

theorem drop_sole (traced : w.Traced) : ((w.drop call).map Prod.snd).Nodup :=
  (List.Sublist.map Prod.snd List.filter_sublist).nodup traced.sole

theorem Traced.dropping (traced : w.Traced) : Traced { w with inHand := w.drop call } where
  once := traced.once
  sole := drop_sole traced
  codes h c found seen := traced.codes h c found seen.of_drop
  held entry member := traced.held entry (List.mem_filter.mp member).1
  used := traced.used
  lost := traced.lost
  named h seen := traced.named h seen.of_drop
  ids := traced.ids

theorem Traced.fading (traced : w.Traced) {server : Server} {names : List String} (fades : w.server.store.Fades names server.store)
    (fresh : ∀ name ∈ names, name ∉ w.server.named) (keyed : ∀ (k : String) g, server.store.inner.grants[k]? = some g → g.id = k)
    (named : ∀ name ∈ w.server.named, name ∈ server.named) : Traced { w with server } where
  once := traced.once
  sole := traced.sole
  codes h c found seen := by
    rcases fades.inner.codes h c found with ⟨old, there⟩ | new
    · exact traced.codes h old there seen
    · exact fresh h new (traced.named h seen)
  held := traced.held
  used h entry found := traced.used h entry (fades.inner.used h entry found)
  lost h among id product := by
    obtain ⟨gone, file⟩ := traced.lost h among id product
    have lost := fades.inner.grants id gone
    refine ⟨lost, fun f member same => ?_⟩
    rcases fades.file f member with before | ⟨k, found⟩
    · exact file f before same
    · rw [← keyed k f found, same, lost] at found
      cases found
  named h seen := named h (traced.named h seen)
  ids h id product := named id (traced.ids h id product)

theorem Traced.taking (traced : w.Traced) {h : String} (unseen : ¬w.Seen h) (absent : w.server.store.inner.codes[h]? = none)
    (known : h ∈ w.server.named) : Traced { w with inHand := (call, h) :: w.drop call } := by
  have rest := @dropping call w traced
  have split : ∀ k, Seen { w with inHand := (call, h) :: w.drop call } k → k = h ∨ w.Seen k := by
    intro k seen
    rcases seen with product | hand | again
    · exact .inr (.inl product)
    · rcases List.mem_cons.mp hand with same | kept
      · exact .inl same
      · exact .inr (@Seen.of_drop call w _ (.inr (.inl kept)))
    · exact .inr (.inr (.inr again))
  refine ⟨traced.once, ?_, fun k c found seen => ?_, fun entry member => ?_, traced.used, traced.lost, fun k seen => ?_, traced.ids⟩
  · refine List.nodup_cons.mpr ⟨fun among => ?_, rest.sole⟩
    exact unseen (@Seen.of_drop call w _ (.inr (.inl among)))
  · rcases split k seen with rfl | before
    · rw [absent] at found
      cases found
    · exact traced.codes k c found before
  · rcases List.mem_cons.mp member with rfl | kept
    · exact fun product => unseen (.inl product)
    · exact rest.held entry kept
  · rcases split k seen with rfl | before
    · exact known
    · exact traced.named k before

theorem Traced.replaying (traced : w.Traced) {h : String} (seen : w.Seen h)
    (lost : ∀ id, (h, id) ∈ w.products → w.server.store.inner.grants[id]? = none ∧ ∀ f ∈ w.server.store.file.grants, f.id ≠ id) :
    Traced { w with replayed := h :: w.replayed } := by
  have same : ∀ k, Seen { w with replayed := h :: w.replayed } k → w.Seen k := by
    intro k later
    rcases later with product | hand | again
    · exact .inl product
    · exact .inr (.inl hand)
    · rcases List.mem_cons.mp again with rfl | before
      · exact seen
      · exact .inr (.inr before)
  refine ⟨traced.once, traced.sole, fun k c found later => traced.codes k c found (same k later), traced.held, traced.used, ?_,
    fun k later => traced.named k (same k later), traced.ids⟩
  intro k among id product
  rcases List.mem_cons.mp among with rfl | before
  · exact lost id product
  · exact traced.lost k before id product

theorem Traced.producing (traced : w.Traced) {h id : String} {g : Grant} {until_ : Int} {server : Server} (holds : (call, h) ∈ w.inHand)
    (single : h ∉ w.replayed) (fresh : id ∉ w.server.named) (codes : server.store.inner.codes = w.server.store.inner.codes)
    (used : server.store.inner.usedCodes = w.server.store.inner.usedCodes.insert h (id, until_))
    (grants : server.store.inner.grants = w.server.store.inner.grants.insert id g)
    (file : server.store.file = server.store.inner.snapshot)
    (keyed : ∀ (k : String) g, server.store.inner.grants[k]? = some g → g.id = k) (named : ∀ name ∈ w.server.named, name ∈ server.named)
    (drawn : id ∈ server.named) : Traced { w with server, inHand := w.drop call, products := (h, id) :: w.products } := by
  have mine : w.Seen h := .inr (.inl (List.mem_map.mpr ⟨_, holds, rfl⟩))
  have same : ∀ k, Seen { w with server, inHand := w.drop call, products := (h, id) :: w.products } k → w.Seen k := by
    intro k later
    rcases later with product | hand | again
    · rcases List.mem_cons.mp product with rfl | before
      · exact mine
      · exact .inl before
    · exact @Seen.of_drop call w _ (.inr (.inl hand))
    · exact .inr (.inr again)
  constructor
  · exact List.nodup_cons.mpr ⟨traced.held _ holds, traced.once⟩
  · exact drop_sole traced
  · intro k c found later
    rw [codes] at found
    exact traced.codes k c found (same k later)
  · intro entry member product
    obtain ⟨there, apart⟩ := List.mem_filter.mp member
    rcases List.mem_cons.mp product with alike | before
    · have one := List.inj_on_of_nodup_map traced.sole there holds alike
      rw [one] at apart
      simp at apart
    · exact traced.held entry there before
  · intro k entry found
    rw [used, Inner.insert_get] at found
    split at found
    · rename_i alike
      cases found
      exact alike ▸ List.mem_cons_self
    · exact List.mem_cons_of_mem _ (traced.used k entry found)
  · intro k among other product
    rcases List.mem_cons.mp product with alike | before
    · injection alike with alike
      exact absurd (alike ▸ among) single
    · obtain ⟨gone, -⟩ := traced.lost k among other before
      have apart : other ≠ id := fun alike => fresh (alike ▸ traced.ids k other before)
      have lost : server.store.inner.grants[other]? = none := by rw [grants, Inner.insert_get, if_neg apart, gone]
      refine ⟨lost, fun f member alike => ?_⟩
      rw [file] at member
      obtain ⟨key, found⟩ := Inner.mem_snapshot.mp member
      rw [← keyed key f found, alike, lost] at found
      cases found
  · exact fun k later => named k (traced.named k (same k later))
  · intro k other product
    rcases List.mem_cons.mp product with alike | before
    · injection alike with _ alike
      exact alike ▸ drawn
    · exact named other (traced.ids k other before)

end Watch

/-! ### Steps -/

/-- No grant is created from a code that has been presented again meanwhile, and where a grant is to
go because its code is presented again, that is written. -/
def careful (prim : Primitives) : WatchPolicy := fun w chance _ operation =>
  match operation with
  | .createGrant code _ _ _ _ _ => prim.secretHash "code" code ∉ w.replayed
  | .consumeCode code _ _ _ _ t =>
    (w.server.store.inner.prune t).usedCodes.contains (prim.secretHash "code" code) = true → chance.written.isOk = true
  | _ => True

def Section.Plain : {β : Type} → Section β → Prop
  | _, .createGrant _ _ _ _ _ _ => False
  | _, _ => True

theorem Server.perform_frame {s : Server} {β : Type} (operation : Section β) :
    (s.perform prim call chance operation).2.boot = s.boot ∧
      ∀ name, name ∈ chance.names prim ∨ name ∈ s.named → name ∈ (s.perform prim call chance operation).2.named := by
  cases operation <;> simp only [perform, record, note] <;> repeat' split
  all_goals simp +contextual

theorem Section.fades {store : OAuthStore} {clock : Int} {β : Type} {operation : Section β} (plain : operation.Plain) :
    store.Fades (chance.names prim) (operation.run prim store clock chance).2 := by
  cases operation with
  | createGrant code clientId ac auth scopes t => exact plain.elim
  | registerClient clientName redirectUris source t => exact OAuthStore.registerClient_fades clientName redirectUris source
  | list => exact OAuthStore.pruned_fades
  | deleteClient clientId => exact OAuthStore.deleteClient_fades clientId
  | beginPending p => exact OAuthStore.beginPending_fades p
  | peekPending id => exact OAuthStore.pruned_fades
  | takePending id approver => exact .memory ((Inner.prune_fades _ _).trans (.same rfl rfl rfl))
  | issueCode p username source granted t => exact OAuthStore.issueCode_fades p username source granted
  | consumeCode code clientId redirectUri codeVerifier resource t =>
    exact OAuthStore.consumeCode_fades code clientId redirectUri codeVerifier resource
  | findGrant refreshToken clientId resource t => exact OAuthStore.findGrant_fades refreshToken clientId resource
  | rotate grant auth requested t => exact OAuthStore.rotate_fades grant auth requested t
  | validateAccess token resource t => exact OAuthStore.validateAccess_fades token resource t
  | revokeToken token clientId => exact OAuthStore.revokeToken_fades token clientId
  | revokeGrant grantId => exact OAuthStore.revokeGrant_fades grantId
  | revokeUser username => exact OAuthStore.revokeAny_fades _
  | revokeAll => exact OAuthStore.revokeAny_fades _
  | _ => exact OAuthStore.still_fades

namespace OAuthStore
variable {s : OAuthStore} {code clientId redirectUri codeVerifier : String} {resource : Option String} {t : Int}

theorem consumeCode_taken (there : (s.inner.prune t).codes.contains (prim.secretHash "code" code) = true) :
    (consumeCode prim s code clientId redirectUri codeVerifier resource t chance).2.inner.codes[prim.secretHash "code" code]? = none := by
  rw [TreeMap.contains_eq_isSome_getElem?] at there
  obtain ⟨c, found⟩ := Option.isSome_iff_exists.mp there
  have erased : ((s.inner.prune t).codes.erase (prim.secretHash "code" code))[prim.secretHash "code" code]? = none :=
    TreeMap.getElem?_erase_self
  unfold consumeCode
  dsimp only [pruned]
  rw [found]
  dsimp only
  split
  · exact erased
  · split
    · exact erased
    · split
      · exact erased
      · split <;> exact erased

theorem consumeCode_replayed (absent : (s.inner.prune t).codes.contains (prim.secretHash "code" code) = false) {entry : String × Int}
    (used : (s.inner.prune t).usedCodes[prim.secretHash "code" code]? = some entry) (written : chance.written.isOk = true) :
    (consumeCode prim s code clientId redirectUri codeVerifier resource t chance).2.inner.grants[entry.1]? = none ∧
      (consumeCode prim s code clientId redirectUri codeVerifier resource t chance).2.file =
        (consumeCode prim s code clientId redirectUri codeVerifier resource t chance).2.inner.snapshot := by
  rw [TreeMap.contains_eq_isSome_getElem?] at absent
  have none_ := Option.isNone_iff_eq_none.mp (Option.isSome_eq_false_iff.mp absent)
  unfold consumeCode
  dsimp only [pruned]
  rw [none_]
  dsimp only
  rw [used]
  unfold commit
  cases wrote : chance.written with
  | error e =>
    rw [wrote] at written
    cases written
  | ok _ =>
    dsimp only
    rw [Inner.removeGrant_grants]
    exact ⟨if_pos rfl, rfl⟩

end OAuthStore

namespace Watch
variable {w : Watch}

def Leaves (call : CallId) (before after : Watch) : Prop :=
  after.server.boot = before.server.boot ∧ ∀ entry ∈ before.inHand, entry.1 ≠ call → entry ∈ after.inHand

theorem mem_drop {entry : CallId × String} (member : entry ∈ w.inHand) (apart : entry.1 ≠ call) : entry ∈ w.drop call :=
  List.mem_filter.mpr ⟨member, by simpa using apart⟩

theorem perform_leaves {β : Type} (operation : Section β) : Leaves call w (w.perform prim call chance operation).2 := by
  have boot := (@Server.perform_frame prim call chance w.server β operation).1
  cases operation <;> unfold perform observe <;> dsimp only <;> repeat' split
  all_goals
    refine ⟨boot, fun entry member apart => ?_⟩
    first
    | exact member
    | exact mem_drop member apart
    | exact List.mem_cons_of_mem _ (mem_drop member apart)

theorem Traced.served (traced : w.Traced) (fresh : w.server.Fresh prim chance) {β : Type} {operation : Section β} (plain : operation.Plain)
    (last : Consistent False False (w.server.perform prim call chance operation).2) :
    Traced { w with server := (w.server.perform prim call chance operation).2 } := by
  have named := (@Server.perform_frame prim call chance w.server β operation).2
  have store := (@Server.perform_store prim call chance w.server β operation).1
  refine traced.fading ?_ fresh last.tidy.keyed fun name member => named name (.inr member)
  rw [store]
  exact Section.fades plain

theorem consume_step (traced : w.Traced) (valid : Consistent False False w.server) (fresh : w.server.Fresh prim chance)
    {code clientId redirectUri codeVerifier : String} {resource : Option String} {t : Int}
    (careful_ : careful prim w chance (.consumeCode code clientId redirectUri codeVerifier resource t))
    (last : Consistent False False (w.server.perform prim call chance (.consumeCode code clientId redirectUri codeVerifier resource t)).2) :
    (w.perform prim call chance (.consumeCode code clientId redirectUri codeVerifier resource t)).2.Traced ∧
      ((w.perform prim call chance (.consumeCode code clientId redirectUri codeVerifier resource t)).1.isOk = true →
        (call, prim.secretHash "code" code) ∈ (w.perform prim call chance (.consumeCode code clientId redirectUri codeVerifier resource t)).2.inHand) := by
  have plain : (Section.consumeCode code clientId redirectUri codeVerifier resource t).Plain := trivial
  have served := traced.served fresh plain last
  have store := (@Server.perform_store prim call chance w.server _ (.consumeCode code clientId redirectUri codeVerifier resource t)).1
  have named := (@Server.perform_frame prim call chance w.server _ (.consumeCode code clientId redirectUri codeVerifier resource t)).2
  have pruned : w.server.store.inner.Fades [] (w.server.store.inner.prune t) := Inner.prune_fades t _
  unfold perform observe
  dsimp only
  split
  · rename_i there
    have present := there
    rw [TreeMap.contains_eq_isSome_getElem?] at present
    obtain ⟨c, found⟩ := Option.isSome_iff_exists.mp present
    obtain ⟨old, earlier⟩ := (pruned.codes _ c found).resolve_right List.not_mem_nil
    split
    · refine ⟨served.taking (traced.codes _ old earlier) ?_ (named _ (.inr (valid.codes _ old earlier).1)), fun _ => List.mem_cons_self⟩
      rw [store]
      exact OAuthStore.consumeCode_taken there
    · rename_i failed
      exact ⟨served, fun ok => absurd ok failed⟩
  · rename_i absent
    have none_ := Bool.eq_false_iff.mpr absent
    have refused : (w.server.perform prim call chance (.consumeCode code clientId redirectUri codeVerifier resource t)).1.isOk = false := by
      cases done : (w.server.perform prim call chance (.consumeCode code clientId redirectUri codeVerifier resource t)).1 with
      | error e => rfl
      | ok ac =>
        have there := Consistent.consumeCode_ok done
        rw [TreeMap.contains_eq_isSome_getElem?, there] at none_
        cases none_
    split
    · rename_i known
      refine ⟨?_, fun ok => absurd (ok.symm.trans refused) (by simp)⟩
      by_cases remembered : (w.server.store.inner.prune t).usedCodes.contains (prim.secretHash "code" code) = true
      · have some_ := remembered
        rw [TreeMap.contains_eq_isSome_getElem?] at some_
        obtain ⟨entry, used⟩ := Option.isSome_iff_exists.mp some_
        have product := traced.used _ entry (pruned.used _ entry used)
        have gone := @OAuthStore.consumeCode_replayed prim chance _ code clientId redirectUri codeVerifier resource t none_ entry used
          (careful_ remembered)
        apply served.replaying (.inl (List.mem_map.mpr ⟨_, product, rfl⟩))
        intro id other
        have same := List.inj_on_of_nodup_map traced.once other product rfl
        injection same with _ same
        have lost : (w.server.perform prim call chance (.consumeCode code clientId redirectUri codeVerifier resource t)).2.store.inner.grants[
            entry.1]? = none := by
          rw [store]
          exact gone.1
        rw [same]
        refine ⟨lost, fun f member alike => ?_⟩
        have file : (w.server.perform prim call chance (.consumeCode code clientId redirectUri codeVerifier resource t)).2.store.file =
          (w.server.perform prim call chance (.consumeCode code clientId redirectUri codeVerifier resource t)).2.store.inner.snapshot := by
          rw [store]
          exact gone.2
        rw [file] at member
        obtain ⟨k, found⟩ := Inner.mem_snapshot.mp member
        rw [← last.tidy.keyed k f found, alike, lost] at found
        cases found
      · simp only [Bool.not_eq_true] at remembered
        simp only [remembered, Bool.false_or, List.any_eq_true, decide_eq_true_eq] at known
        obtain ⟨entry, member, same⟩ := known
        apply served.replaying (.inr (.inl (List.mem_map.mpr ⟨entry, member, same⟩)))
        intro id product
        exact absurd (List.mem_map.mpr ⟨_, product, same.symm⟩) (traced.held entry member)
    · exact ⟨served, fun ok => absurd (ok.symm.trans refused) (by simp)⟩

theorem create_step (traced : w.Traced) (fresh : w.server.Fresh prim chance) {code clientId : String} {ac : AuthCode} {auth : UserAuthority}
    {scopes : List String} {t : Int} (holds : (call, prim.secretHash "code" code) ∈ w.inHand)
    (careful_ : careful prim w chance (.createGrant code clientId ac auth scopes t))
    (last : Consistent False False (w.server.perform prim call chance (.createGrant code clientId ac auth scopes t)).2) :
    (w.perform prim call chance (.createGrant code clientId ac auth scopes t)).2.Traced := by
  have store := (@Server.perform_store prim call chance w.server _ (.createGrant code clientId ac auth scopes t)).1
  have named := (@Server.perform_frame prim call chance w.server _ (.createGrant code clientId ac auth scopes t)).2
  have value : (w.server.perform prim call chance (.createGrant code clientId ac auth scopes t)).1 =
    (OAuthStore.createGrant prim w.server.store code clientId ac auth scopes t chance).1 := rfl
  have drawn : chance.randomToken "wsg_" ∈ chance.names prim := by simp [Chance.names]
  unfold perform observe
  dsimp only
  rcases @OAuthStore.createGrant_adds prim chance w.server.store code clientId ac auth scopes t with
    ⟨refused, same⟩ | ⟨ok, g, until_, draft, written, codes, used, grants⟩
  · rw [value, refused, if_neg (by simp)]
    have kept : w.server.store.Fades [] (w.server.perform prim call chance (.createGrant code clientId ac auth scopes t)).2.store := by
      rw [store, show (Section.run prim w.server.store w.server.clock chance (.createGrant code clientId ac auth scopes t)).2 = w.server.store from same]
      exact OAuthStore.still_fades
    exact (traced.fading kept (fun _ impossible => by cases impossible) last.tidy.keyed fun name member => named name (.inr member)).dropping
  · rw [value, ok, if_pos rfl]
    have after : (w.server.perform prim call chance (.createGrant code clientId ac auth scopes t)).2.store = ⟨draft, draft.snapshot⟩ :=
      store.trans written
    apply traced.producing holds careful_ (fresh _ drawn)
    · rw [after]
      exact codes
    · rw [after]
      exact used
    · rw [after]
      exact grants
    · rw [after]
    · exact last.tidy.keyed
    · exact fun name member => named name (.inr member)
    · exact named _ (.inl drawn)

theorem authority_step (traced : w.Traced) (fresh : w.server.Fresh prim chance) {username : String} {source : AuthSource} {wanted : List String}
    (last : Consistent False False (w.server.perform prim call chance (.authority username source wanted)).2) :
    (w.perform prim call chance (.authority username source wanted)).2.Traced ∧
      ∀ auth, (w.perform prim call chance (.authority username source wanted)).1 = some auth →
        (∃ scope ∈ wanted, auth.allowedScopes.contains scope = true) →
          (w.perform prim call chance (.authority username source wanted)).2.inHand = w.inHand := by
  have plain : (Section.authority username source wanted).Plain := trivial
  have served := traced.served fresh plain last
  unfold perform observe
  dsimp only
  split
  · exact ⟨served, fun _ _ _ => rfl⟩
  · rename_i useless
    refine ⟨served.dropping, ?_⟩
    rintro auth found ⟨scope, among, allowed⟩
    exfalso
    apply useless
    rw [found]
    exact List.any_eq_true.mpr ⟨scope, among, allowed⟩

/-! ### Every run -/

abbrev knownWatch (prim : Primitives) : System Watch Section CallId Unit :=
  (watchSystem prim (careful prim)).confined fun w => Consistent False False w.server

abbrev watchRules (prim : Primitives) (call : CallId) : Rules Watch Section := (knownWatch prim).rules Traced Leaves call

theorem perform_server {β : Type} (operation : Section β) :
    (w.perform prim call chance operation).2.server = (w.server.perform prim call chance operation).2 := by
  cases operation <;> unfold perform observe <;> dsimp only <;> repeat' split
  all_goals rfl

theorem performed {β : Type} {operation : Section β} {value : β} {before after : Watch}
    (law : (knownWatch prim).commits call before operation value after) : ∃ chance, before.server.boot = call.1 ∧
      before.server.Fresh prim chance ∧ careful prim before chance operation ∧ Consistent False False before.server ∧
      Consistent False False (before.server.perform prim call chance operation).2 ∧ value = (before.perform prim call chance operation).1 ∧
      after = (before.perform prim call chance operation).2 := by
  obtain ⟨⟨current, chance, fresh, careful_, done⟩, first, last⟩ := law
  obtain rfl : value = (before.perform prim call chance operation).1 := congrArg Prod.fst done
  obtain rfl : after = (before.perform prim call chance operation).2 := congrArg Prod.snd done
  rw [perform_server] at last
  exact ⟨chance, current, fresh, careful_, first, last, rfl, rfl⟩

theorem plain_step {β : Type} {operation : Section β} {value : β} {before after : Watch} (plain : operation.Plain) (traced : before.Traced)
    (law : (knownWatch prim).commits call before operation value after) : after.Traced ∧ Leaves call before after := by
  obtain ⟨chance, -, fresh, careful_, first, last, -, rfl⟩ := performed law
  refine ⟨?_, perform_leaves operation⟩
  cases operation with
  | createGrant code clientId ac auth scopes t => exact plain.elim
  | consumeCode code clientId redirectUri codeVerifier resource t => exact (consume_step traced first fresh careful_ last).1
  | authority username source wanted => exact (authority_step traced fresh last).1
  | _ => exact traced.served fresh plain last

structure Holding (call : CallId) (h : String) (w : Watch) : Prop where
  begun : call.1 ≤ w.server.boot
  holds : w.server.boot = call.1 → (call, h) ∈ w.inHand

theorem holding_stable (h : String) : (watchRules prim call).Stable (Holding call h) := by
  rintro before after - - (⟨⟨clock, -, rfl⟩ | rfl, -⟩ | ⟨other, apart, boot, kept⟩) ⟨begun, holds⟩
  · exact ⟨begun, holds⟩
  · refine ⟨Nat.le_succ_of_le begun, fun same => ?_⟩
    simp only [restart, Server.restart] at same
    omega
  · refine ⟨boot ▸ begun, fun same => ?_⟩
    exact kept _ (holds (boot.symm.trans same)) fun alike => apart alike.symm

theorem any_stable : (watchRules prim call).Stable fun _ => True := fun _ _ _ _ _ _ => trivial

theorem ends_watch {fact : Watch → Prop} (stable : (watchRules prim call).Stable fact) :
    (watchRules prim call).Triple fact (.pure ()) fun _ _ => True := .pure () stable fun _ _ _ => trivial

theorem plainTriple {program : Program Section Unit} (plain : program.Yields (fun operation => operation.Plain) fun _ => True) :
    (watchRules prim call).Triple (fun _ => True) program fun _ _ => True := by
  refine (Rules.Triple.yields plain any_stable ?_).weaken_post fun _ _ _ _ => trivial
  intro before β operation value after traced _ plain law
  obtain ⟨kept, leaves⟩ := plain_step plain traced law
  exact ⟨kept, leaves, trivial⟩

theorem consumes {code clientId redirectUri codeVerifier : String} {resource : Option String} {t : Int} {value : Except TokenError AuthCode}
    {before after : Watch} (traced : before.Traced)
    (law : (knownWatch prim).commits call before (.consumeCode code clientId redirectUri codeVerifier resource t) value after) :
    after.Traced ∧ Leaves call before after ∧ (value.isOk = true → Holding call (prim.secretHash "code" code) after) := by
  obtain ⟨chance, current, fresh, careful_, first, last, rfl, rfl⟩ := performed law
  obtain ⟨kept, taken⟩ := consume_step traced first fresh careful_ last
  have leaves := @perform_leaves prim call chance before _ (.consumeCode code clientId redirectUri codeVerifier resource t)
  exact ⟨kept, leaves, fun ok => ⟨by rw [leaves.1, current], fun _ => taken ok⟩⟩

theorem confirms {username : String} {source : AuthSource} {wanted : List String} {auth : Option UserAuthority} {before after : Watch}
    {h : String} (traced : before.Traced) (holding : Holding call h before)
    (law : (knownWatch prim).commits call before (.authority username source wanted) auth after) :
    after.Traced ∧ Leaves call before after ∧ ∀ a, auth = some a → wanted.filter (fun scope => a.allowedScopes.contains scope) ≠ [] →
      Holding call h after := by
  obtain ⟨chance, current, fresh, careful_, first, last, rfl, rfl⟩ := performed law
  obtain ⟨kept, same⟩ := authority_step traced fresh last
  have leaves := @perform_leaves prim call chance before _ (.authority username source wanted)
  refine ⟨kept, leaves, fun a answered usable => ⟨by rw [leaves.1, current], fun _ => ?_⟩⟩
  obtain ⟨scope, member⟩ := List.exists_mem_of_ne_nil _ usable
  obtain ⟨among, allowed⟩ := List.mem_filter.mp member
  rw [same a answered ⟨scope, among, allowed⟩]
  exact holding.holds current

theorem creates {code clientId : String} {ac : AuthCode} {auth : UserAuthority} {scopes : List String} {t : Int}
    {value : Except TokenError TokenSet} {before after : Watch} (traced : before.Traced) (holding : Holding call (prim.secretHash "code" code) before)
    (law : (knownWatch prim).commits call before (.createGrant code clientId ac auth scopes t) value after) :
    after.Traced ∧ Leaves call before after := by
  obtain ⟨chance, current, fresh, careful_, first, last, rfl, rfl⟩ := performed law
  exact ⟨create_step traced fresh (holding.holds current) careful_ last, perform_leaves _⟩

theorem exchangeTriple (code clientId redirectUri codeVerifier : String) (resource : Option String) :
    (watchRules prim call).Triple (fun _ => True) ((exchangeCode code clientId redirectUri codeVerifier resource).bind fun _ => .pure ())
      fun _ _ => True := by
  apply Rules.Triple.leading (fun _ _ => True) any_stable
  · intro before value after traced _ law
    have plain : Section.now.Plain := trivial
    obtain ⟨kept, leaves⟩ := plain_step plain traced law
    exact ⟨kept, leaves, trivial⟩
  intro t
  apply Rules.Triple.leading (fun found w => found.isOk = true → Holding call (prim.secretHash "code" code) w) any_stable
  · exact fun before value after traced _ law => consumes traced law
  intro found
  cases found with
  | error e => exact (ends_watch any_stable).weaken fun _ _ _ => trivial
  | ok ac =>
    refine Rules.Triple.weaken ?_ fun w _ held => held rfl
    apply Rules.Triple.leading (fun auth w => ∀ a, auth = some a → ac.scopes.filter (fun scope => a.allowedScopes.contains scope) ≠ [] →
      Holding call (prim.secretHash "code" code) w) (holding_stable _)
    · exact fun before value after traced holding law => confirms traced holding law
    intro auth
    cases auth with
    | none => exact (ends_watch any_stable).weaken fun _ _ _ => trivial
    | some auth =>
      by_cases useless : ac.scopes.filter (fun scope => auth.allowedScopes.contains scope) = []
      · simp only [Program.pure_bind, Program.pure_eq, if_pos useless]
        exact (ends_watch any_stable).weaken fun _ _ _ => trivial
      · simp only [Program.pure_bind, if_neg useless]
        refine Rules.Triple.weaken ?_ fun w _ held => held auth rfl useless
        apply Rules.Triple.leading (fun _ _ => True) (holding_stable _)
        · intro before value after traced holding law
          obtain ⟨kept, leaves⟩ := creates traced holding law
          exact ⟨kept, leaves, trivial⟩
        · exact fun _ => ends_watch any_stable

theorem watchTriple {program : Program Section Unit} (made : Call prim program) :
    (watchRules prim call).Triple (fun _ => True) program fun _ _ => True := by
  cases made with
  | @single β operation single =>
    apply plainTriple
    refine ⟨?_, fun _ => trivial⟩
    cases operation <;> trivial
  | register clientName redirectUris source =>
    unfold registerClient
    split
    · exact ends_watch any_stable
    · split
      · exact ends_watch any_stable
      · split
        · exact ends_watch any_stable
        · exact plainTriple ⟨trivial, fun _ => ⟨trivial, fun _ => trivial⟩⟩
  | approve id username source granted =>
    apply plainTriple
    refine ⟨trivial, fun taken => ?_⟩
    cases taken with
    | none => trivial
    | some p => exact ⟨trivial, fun _ => ⟨trivial, fun _ => trivial⟩⟩
  | exchange code clientId redirectUri codeVerifier resource => exact exchangeTriple code clientId redirectUri codeVerifier resource
  | refresh refreshToken clientId resource requested =>
    apply plainTriple
    refine ⟨trivial, fun t => ⟨trivial, fun found => ?_⟩⟩
    cases found with
    | error e => trivial
    | ok grant => exact ⟨trivial, fun _ => ⟨trivial, fun _ => trivial⟩⟩
  | validate token resource => exact plainTriple ⟨trivial, fun _ => ⟨trivial, fun _ => trivial⟩⟩

variable {permitted : WatchPolicy}

theorem server_reached (reached : (watchSystem prim permitted).Reaches New w) :
    (serverSystem prim fun _ _ _ _ => True).Reaches Server.New w.server := by
  obtain ⟨config, ⟨start, ⟨begun, new, rfl⟩, run⟩, same⟩ := System.Reaches.image (serverSystem prim fun _ _ _ _ => True)
    Watch.server reached (by
      rintro before after (⟨clock, later, rfl⟩ | rfl)
      · exact .inl ⟨clock, later, rfl⟩
      · exact .inr rfl) (fun _ _ made => made) (by
      intro call β before operation value after law
      obtain ⟨current, chance, fresh, -, done⟩ := law
      refine ⟨current, chance, fresh, trivial, ?_⟩
      obtain rfl : after = (before.perform prim call chance operation).2 := congrArg Prod.snd done
      have answered : value = (before.perform prim call chance operation).1 := congrArg Prod.fst done
      exact Prod.ext answered (perform_server operation)) fun _ _ impossible => impossible
  exact ⟨config, ⟨begun.server, new.server, run⟩, same⟩

theorem traced_run (reached : (watchSystem prim (careful prim)).Reaches New w) : w.Traced := by
  have known : ∀ w, (watchSystem prim (careful prim)).Reaches New w → Consistent False False w.server := fun w reached =>
    Server.consistent_run (fun _ _ _ _ _ => ⟨False.elim, False.elim⟩) (server_reached reached)
  have sound : (knownWatch prim).Sound New Traced Leaves fun _ _ => True := by
    constructor
    · exact fun w new => ⟨new.traced, fun _ => trivial⟩
    · rintro before after traced ⟨⟨clock, later, rfl⟩ | rfl, -, -⟩
      · exact ⟨traced.wait clock, fun _ _ => trivial⟩
      · exact ⟨traced.restart, fun _ _ => trivial⟩
    · exact fun _ _ _ _ _ _ _ _ _ => trivial
    · exact fun call program made => watchTriple made
    · exact fun _ _ _ _ => trivial
  exact sound.reaches (reached.confined known)

end Watch

theorem replayed_code_is_spent {w : Watch} (reached : (watchSystem prim (careful prim)).Reaches Watch.New w) : w.Spent := by
  have traced := Watch.traced_run reached
  have agrees := Server.agrees_run (Watch.server_reached reached)
  refine ⟨traced.once, fun h again _ id product => ?_⟩
  obtain ⟨gone, -⟩ := traced.lost h again id product
  refine ⟨gone, fun k a found same => ?_, fun k found => ?_⟩
  · obtain ⟨g, there⟩ := agrees.access k a found
    rw [same, gone] at there
    cases there
  · obtain ⟨g, there, -⟩ := (agrees.indexes.refresh k id).mp found
    rw [gone] at there
    cases there

abbrev WatchTurn := Turn Watch Section CallId Unit

def Watch.serve (allowed : Watch → Chance → {β : Type} → Section β → Bool) (call : CallId) (index : Nat) {β : Type} (w : Watch)
    (operation : Section β) : Option (Watch × β) :=
  let chance := chanceAt index
  if w.server.boot = call.1 ∧ (∀ name ∈ chance.names samplePrimitives, name ∉ w.server.named) ∧ allowed w chance operation = true then
    some (w.perform samplePrimitives call chance operation).swap
  else none

theorem watch_commits {allowed : Watch → Chance → {β : Type} → Section β → Bool} {permitted : WatchPolicy}
    (checked : ∀ w chance {β : Type} (operation : Section β), allowed w chance operation = true → permitted w chance operation)
    (call : CallId) (index : Nat) {β : Type} (w : Watch) (operation : Section β) (after : Watch) (value : β)
    (served : Watch.serve allowed call index w operation = some (after, value)) :
    (watchSystem samplePrimitives permitted).commits call w operation value after := by
  simp only [Watch.serve] at served
  split at served
  · rename_i may
    obtain ⟨current, fresh, allowed⟩ := may
    refine ⟨current, chanceAt index, fresh, checked w _ operation allowed, ?_⟩
    exact (Prod.swap_eq_iff_eq_swap.mp (Option.some.inj served)).symm
  · cases served

def newWatch : Watch := ⟨newServer, [], [], []⟩

theorem newWatch_new : newWatch.New := ⟨newServer_new, rfl, rfl, rfl⟩

def issues : List WatchTurn :=
  Turn.whole (0, 0) ((registerClient samplePrimitives (some "Agent") ["https://app.example.com/cb"] "198.51.100.1").bind fun _ => .pure ()) 2 ++
    Turn.whole (0, 0) (.request (.beginPending ⟨"wsc_1", "Agent", "https://app.example.com/cb", none, sampleVerifier, ["read"],
      "https://ws.example.com/mcp", 0, "198.51.100.1"⟩) fun _ => .pure ()) 1 ++
    Turn.whole (0, 0) ((approve "wsp_2" "paul" .wolfStack ["read"]).bind fun _ => .pure ()) 3

def presents : Program Section Unit :=
  (exchangeCode "wsa_5" "wsc_1" "https://app.example.com/cb" sampleVerifier none).bind fun _ => .pure ()

def replaysAfter : List WatchTurn := issues ++ Turn.whole (0, 0) presents 4 ++ Turn.whole (0, 1) presents 2

def replaysBetween : List WatchTurn :=
  issues ++ [.start (0, 0) presents, .advance (0, 0) 2] ++ Turn.whole (0, 1) presents 2 ++ [.advance (0, 0) 2, .finish (0, 0)]

theorem replays_lawful {permitted : WatchPolicy} : (∀ turn ∈ replaysAfter, turn.Lawful (watchSystem samplePrimitives permitted)) ∧
    ∀ turn ∈ replaysBetween, turn.Lawful (watchSystem samplePrimitives permitted) := by
  have begun : ∀ p, Call samplePrimitives (.request (Section.beginPending p) fun _ => .pure ()) := fun p => .single trivial
  have presented : Call samplePrimitives presents := .exchange _ _ _ _ _
  constructor
  · simp [replaysAfter, issues, Turn.whole, Turn.Lawful, watchSystem, begun, presented, Call.register, Call.approve]
  · simp [replaysBetween, issues, Turn.whole, Turn.Lawful, watchSystem, begun, presented, Call.register, Call.approve]

def carefulNow (w : Watch) (chance : Chance) : {β : Type} → Section β → Bool
  | _, .createGrant code _ _ _ _ _ => !w.replayed.contains (samplePrimitives.secretHash "code" code)
  | _, .consumeCode code _ _ _ _ t =>
    !(w.server.store.inner.prune t).usedCodes.contains (samplePrimitives.secretHash "code" code) || chance.written.isOk
  | _, _ => true

theorem carefulNow_checked (w : Watch) (chance : Chance) {β : Type} (operation : Section β) (may : carefulNow w chance operation = true) :
    careful samplePrimitives w chance operation := by
  unfold careful
  cases operation with
  | createGrant code clientId ac auth scopes t => simpa [carefulNow] using may
  | consumeCode code clientId redirectUri codeVerifier resource t =>
    intro used
    simpa [carefulNow, used] using may
  | _ => trivial

theorem replayed_code_is_spent_sample : ∃ w : Watch, (watchSystem samplePrimitives (careful samplePrimitives)).Reaches Watch.New w ∧
    (!w.products.isEmpty && !w.replayed.isEmpty) = true ∧ w.Spent := by
  obtain ⟨w, reached, passed⟩ := @conduct_reaches _ _ _ _ _ (watchSystem samplePrimitives (careful samplePrimitives))
    (Watch.serve fun w chance _ operation => carefulNow w chance operation) Watch.New newWatch newWatch_new (watch_commits carefulNow_checked)
    replaysAfter replays_lawful.1 (fun w => !w.products.isEmpty && !w.replayed.isEmpty) (by decide +kernel)
  exact ⟨w, reached, passed, replayed_code_is_spent reached⟩

/-- All calls are over, the code was presented again, and its grant is live. -/
def Watch.survives (w : Watch) : Bool :=
  w.inHand.isEmpty && w.replayed.any fun h => w.products.any fun product => product.1 = h && w.server.store.inner.grants.contains product.2

theorem Watch.survives_not_spent {w : Watch} (survives : w.survives = true) : ¬w.Spent := by
  simp only [Watch.survives, Bool.and_eq_true, List.isEmpty_iff, List.any_eq_true, decide_eq_true_eq] at survives
  obtain ⟨idle, h, again, product, member, rfl, there⟩ := survives
  intro spent
  have dead := spent.dead product.1 again (fun entry held => by rw [idle] at held; cases held) product.2 member
  rw [TreeMap.contains_eq_isSome_getElem?, dead.grants] at there
  cases there

theorem replay_between_survives : ¬∀ w : Watch, (watchSystem samplePrimitives fun _ _ _ _ => True).Reaches Watch.New w → w.Spent := by
  intro spent
  obtain ⟨w, reached, passed⟩ := @conduct_reaches _ _ _ _ _ (watchSystem samplePrimitives fun _ _ _ _ => True)
    (Watch.serve fun _ _ _ _ => true) Watch.New newWatch newWatch_new (watch_commits fun _ _ _ _ _ => trivial)
    replaysBetween replays_lawful.2 Watch.survives (by decide +kernel)
  exact Watch.survives_not_spent passed (spent w reached)

end Mcp
