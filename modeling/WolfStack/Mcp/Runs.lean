import WolfStack.Mcp.Steps

/-! The invariant over every run: calls, restarts and the passing of time in any order. -/

namespace Mcp
open Effects
open Std (TreeMap)

variable {settle detect : Prop} {prim : Primitives} {s : Server} {call : CallId}

theorem Server.New.consistent (new : s.New) : Consistent settle detect s := by
  obtain ⟨store, started, log, owners, carried⟩ := new
  have memory : ∀ k : String, s.store.inner.grants[k]? = none := by
    intro k
    rw [store]
    exact TreeMap.getElem?_emptyc
  have file : s.store.file.grants = [] := by rw [store]; rfl
  have access : ∀ h : String, s.store.inner.access[h]? = none := by
    intro h
    rw [store]
    exact TreeMap.getElem?_emptyc
  have codes : ∀ h : String, s.store.inner.codes[h]? = none := by
    intro h
    rw [store]
    exact TreeMap.getElem?_emptyc
  have clients : ∀ k : String, s.store.inner.clients[k]? = none := by
    intro k
    rw [store]
    exact TreeMap.getElem?_emptyc
  have tidy : s.store.inner.Tidy s.owners := by constructor <;> simp [memory, access]
  constructor
  · exact tidy
  all_goals simp [memory, file, codes, clients, log, owners, carried, started, Lawful, Closed, OAuthStore.Holds]

theorem Consistent.wait (valid : Consistent settle detect s) {clock : Int} (later : s.clock ≤ clock) :
    Consistent settle detect { s with clock } where
  __ := valid
  filed f member := (valid.filed f member).imp_right fun past => ⟨past.1, Int.le_trans past.2 later⟩
  started := Int.le_trans valid.started later
  recorded := valid.recorded
  ended id closed := by
    have ended := valid.ended id closed
    exact ⟨ended.grants, fun f member same => Int.le_trans (ended.file f member same) later, ended.access⟩

theorem load_grants {file : Persisted} {k : String} {g : Grant} (found : (Inner.load file).grants[k]? = some g) :
    g ∈ file.grants ∧ g.id = k := (Inner.filled_get (fun g : Grant => g.id) file.grants).1 k g found

theorem load_clients {file : Persisted} {k : String} {c : Client} (found : (Inner.load file).clients[k]? = some c) :
    c ∈ file.clients ∧ c.clientId = k := (Inner.filled_get (fun c : Client => c.clientId) file.clients).1 k c found

theorem load_tidy {file : Persisted} {owners : String → Option String}
    (owned : ∀ f ∈ file.grants, ∀ h ∈ f.refreshHash :: f.retiredRefreshHashes, owners h = some f.id) : (Inner.load file).Tidy owners := by
  refine Inner.rebuildIndexes_tidy (fun k g found => (load_grants found).2) (fun h a found => ?_) fun k g found h among => ?_
  · exact absurd (found.symm.trans TreeMap.getElem?_emptyc) (Option.some_ne_none a)
  · obtain ⟨member, same⟩ := load_grants found
    exact same ▸ owned g member h among

theorem Consistent.restart (valid : Consistent settle detect s) : Consistent settle detect s.restart where
  tidy := load_tidy valid.fileOwned
  clientKeys k c found := (load_clients found).2
  unique := valid.unique
  filed f member := by
    obtain ⟨g, found⟩ := (Inner.filled_get (fun g : Grant => g.id) s.store.file.grants).2 f member
    obtain ⟨there, same⟩ := load_grants found
    exact .inl ⟨g, found, by rw [valid.unique g there f member same]⟩
  fileOwned := valid.fileOwned
  started := Int.le_refl _
  recorded id g held := by
    refine valid.recorded id g (.inr ?_)
    rcases held with live | filed
    · exact load_grants live
    · exact filed
  named := valid.named
  ownersNamed := valid.ownersNamed
  rotatedOwned := valid.rotatedOwned
  rotatedOnce := valid.rotatedOnce
  lawful := valid.lawful
  ended id closed := by
    have ended := valid.ended id closed
    refine ⟨fun g found => ?_, ended.file, fun h a found => ?_⟩
    · obtain ⟨member, same⟩ := load_grants found
      exact ended.file g member same
    · exact absurd (found.symm.trans TreeMap.getElem?_emptyc) (Option.some_ne_none a)
  barred c revoked := by
    obtain ⟨named, -, gone⟩ := valid.barred c revoked
    refine ⟨named, ?_, gone⟩
    cases found : s.restart.store.inner.clients[c]? with
    | none => rfl
    | some client =>
      obtain ⟨member, same⟩ := load_clients found
      exact absurd same (gone client member)
  codes h c found := absurd (found.symm.trans TreeMap.getElem?_emptyc) (Option.some_ne_none c)
  carried _ entry there := by cases there

abbrev Policy := Server → Chance → {β : Type} → Section β → Prop

variable {permitted : Policy}

abbrev serverRules (prim : Primitives) (permitted : Policy) (settle detect : Prop) (call : CallId) : Rules Server Section :=
  (serverSystem prim permitted).rules (Consistent settle detect) (Promised detect) call

structure Within (call : CallId) (fact : Server → Prop) (s : Server) : Prop where
  begun : call.1 ≤ s.boot
  fact : s.boot = call.1 → fact s

structure Lasting (detect : Prop) (call : CallId) (fact : Server → Prop) : Prop where
  wait : ∀ (s : Server) clock, s.clock ≤ clock → fact s → fact { s with clock }
  others : ∀ before after other, other ≠ call → Promised detect other before after → fact before → fact after

theorem within_stable {fact : Server → Prop} (lasting : Lasting detect call fact) :
    (serverRules prim permitted settle detect call).Stable (Within call fact) := by
  rintro before after - - ((⟨clock, later, rfl⟩ | rfl) | ⟨other, apart, promised⟩) ⟨begun, held⟩
  · exact ⟨begun, fun same => lasting.wait before clock later (held same)⟩
  · refine ⟨Nat.le_succ_of_le begun, fun same => ?_⟩
    simp only [Server.restart] at same
    omega
  · rw [← promised.boot] at begun held
    exact ⟨begun, fun same => lasting.others before after other apart promised (held same)⟩

theorem anything_stable : (serverRules prim permitted settle detect call).Stable fun _ => True := fun _ _ _ _ _ _ => trivial

theorem ends : (serverRules prim permitted settle detect call).Triple (fun _ => True) (.pure ()) fun _ _ => True :=
  .pure () anything_stable fun _ _ _ => trivial

theorem pure_ends {fact : Server → Prop} :
    (serverRules prim permitted settle detect call).Triple (Within call fact) (.pure ()) fun _ _ => True :=
  ends.weaken fun _ _ _ => trivial

def Executes (prim : Primitives) (permitted : Policy) (settle detect : Prop) (call : CallId) {β : Type} (before : Server → Prop)
    (operation : Section β) (after : β → Server → Prop) : Prop :=
  ∀ s chance, Consistent settle detect s → before s → s.Fresh prim chance → permitted s chance operation →
    Advance settle detect call s (s.perform prim call chance operation).2 ∧
      after (s.perform prim call chance operation).1 (s.perform prim call chance operation).2

theorem executed {β : Type} {operation : Section β} {fact : Server → Prop} {result : β → Server → Prop}
    (executes : Executes prim permitted settle detect call fact operation result) {before after : Server} {value : β}
    (valid : Consistent settle detect before) (held : before.boot = call.1 → fact before)
    (law : (serverSystem prim permitted).commits call before operation value after) :
    Consistent settle detect after ∧ Promised detect call before after ∧ Within call (result value) after := by
  obtain ⟨current, chance, fresh, may, done⟩ := law
  obtain ⟨advance, holds⟩ := executes before chance valid (held current) fresh may
  have answered : value = (before.perform prim call chance operation).1 := congrArg Prod.fst done
  have left : after = (before.perform prim call chance operation).2 := congrArg Prod.snd done
  rw [answered, left]
  refine ⟨advance.valid, advance.promised, ⟨?_, fun _ => holds⟩⟩
  rw [advance.promised.boot, current]

theorem begins {β : Type} {operation : Section β} {next : β → Program Section Unit} (result : β → Server → Prop)
    (executes : Executes prim permitted settle detect call (fun _ => True) operation result)
    (rest : ∀ value, (serverRules prim permitted settle detect call).Triple (Within call (result value)) (next value) fun _ _ => True) :
    (serverRules prim permitted settle detect call).Triple (fun _ => True) (.request operation next) fun _ _ => True :=
  .leading (fun value => Within call (result value)) anything_stable
    (fun _ _ _ valid _ law => executed executes valid (fun _ => trivial) law) rest

theorem asks {β : Type} {operation : Section β} {next : β → Program Section Unit} {fact : Server → Prop} (result : β → Server → Prop)
    (lasting : Lasting detect call fact) (executes : Executes prim permitted settle detect call fact operation result)
    (rest : ∀ value, (serverRules prim permitted settle detect call).Triple (Within call (result value)) (next value) fun _ _ => True) :
    (serverRules prim permitted settle detect call).Triple (Within call fact) (.request operation next) fun _ _ => True :=
  .leading (fun value => Within call (result value)) (within_stable lasting)
    (fun _ _ _ valid within law => executed executes valid within.fact law) rest

theorem knowing {fact weaker : Server → Prop} {program : Program Section Unit}
    (triple : (serverRules prim permitted settle detect call).Triple (Within call weaker) program fun _ _ => True)
    (implies : ∀ s, fact s → weaker s) :
    (serverRules prim permitted settle detect call).Triple (Within call fact) program fun _ _ => True :=
  triple.weaken fun s _ within => ⟨within.begun, fun same => implies s (within.fact same)⟩

theorem closing {β : Type} {operation : Section β} {fact : Server → Prop} (lasting : Lasting detect call fact)
    (step : ∀ s chance, Consistent settle detect s → fact s → s.Fresh prim chance → permitted s chance operation →
      Advance settle detect call s (s.perform prim call chance operation).2) :
    (serverRules prim permitted settle detect call).Triple (Within call fact) (.request operation fun _ => .pure ()) fun _ _ => True :=
  asks (fun _ _ => True) lasting (fun s chance valid held fresh may => ⟨step s chance valid held fresh may, trivial⟩) fun _ => pure_ends

theorem reads_lasting (t : Int) : Lasting detect call fun s => s.Reads t where
  wait _ _ later reads := ⟨reads.since, Int.le_trans reads.past later⟩
  others before after other _ promised reads := ⟨by rw [promised.started]; exact reads.since, by rw [promised.clock]; exact reads.past⟩

theorem clean_lasting : Lasting detect call fun s => s.Clean detect where
  wait _ _ _ clean := clean
  others _ _ _ _ promised clean := promised.clean clean

def Server.HoldsFor (s : Server) (call : CallId) (username : String) : Prop :=
  ∃ approval, s.holding call = some ⟨call, username, approval⟩

theorem holds_lasting (username : String) : Lasting detect call fun s => s.HoldsFor call username where
  wait _ _ _ holds := holds
  others before after other apart promised holds := by
    obtain ⟨approval, same⟩ := holds
    exact ⟨approval, (promised.holding call apart.symm).trans same⟩

theorem Lasting.and {first second : Server → Prop} (left : Lasting detect call first) (right : Lasting detect call second) :
    Lasting detect call fun s => first s ∧ second s where
  wait s clock later held := ⟨left.wait s clock later held.1, right.wait s clock later held.2⟩
  others before after other apart promised held :=
    ⟨left.others before after other apart promised held.1, right.others before after other apart promised held.2⟩

theorem now_executes : Executes prim permitted settle detect call (fun _ => True) .now fun t s => s.Reads t :=
  fun _ _ valid _ _ _ => ⟨valid.naming _, valid.started, Int.le_refl _⟩

theorem now_holding (username : String) : Executes prim permitted settle detect call (fun s => s.HoldsFor call username) .now
    fun t s => s.Reads t ∧ s.HoldsFor call username :=
  fun _ _ valid held _ _ => ⟨valid.naming _, ⟨valid.started, Int.le_refl _⟩, held⟩

theorem registerTriple (clientName : Option String) (redirectUris : List String) (source : String) :
    (serverRules prim permitted settle detect call).Triple (fun _ => True)
      ((registerClient prim clientName redirectUris source).bind fun _ => .pure ()) fun _ _ => True := by
  unfold registerClient
  split
  · exact ends
  · split
    · exact ends
    · split
      · exact ends
      · apply begins (fun t s => s.Reads t) now_executes
        intro t
        exact closing (reads_lasting t) fun s chance valid reads fresh _ => valid.register_step fresh reads clientName redirectUris source

theorem approveTriple (id username : String) (source : AuthSource) (granted : List String) :
    (serverRules prim permitted settle detect call).Triple (fun _ => True)
      ((approve id username source granted).bind fun _ => .pure ()) fun _ _ => True := by
  apply begins fun p s => p.isSome = true → s.HoldsFor call username
  · intro s chance valid _ _ _
    obtain ⟨advance, holds⟩ : Advance settle detect call s (s.perform prim call chance _).2 ∧ _ := valid.take_step id (some username)
    refine ⟨advance, fun taken => ?_⟩
    obtain ⟨p, found⟩ := Option.isSome_iff_exists.mp taken
    exact holds p username found rfl
  · intro taken
    cases taken with
    | none => exact pure_ends
    | some p =>
      refine knowing (asks _ (holds_lasting username) (now_holding username) ?_) fun s held => held rfl
      intro t
      apply closing ((reads_lasting t).and (holds_lasting username))
      intro s chance valid held fresh _
      obtain ⟨reads, approval, holds⟩ := held
      exact valid.issue_step fresh reads holds

theorem exchangeTriple (code clientId redirectUri codeVerifier : String) (resource : Option String) :
    (serverRules prim permitted settle detect call).Triple (fun _ => True)
      ((exchangeCode code clientId redirectUri codeVerifier resource).bind fun _ => .pure ()) fun _ _ => True := by
  apply begins (fun t s => s.Reads t) now_executes
  intro t
  apply asks (fun found s => ∀ ac, found = .ok ac → s.HoldsFor call ac.username) (reads_lasting t)
  · exact fun s chance valid reads _ _ => valid.consume_step reads code clientId redirectUri codeVerifier resource
  intro found
  cases found with
  | error e => exact pure_ends
  | ok ac =>
    refine knowing (asks (fun found s => ∀ auth, found = some auth →
      ac.scopes.filter (fun scope => auth.allowedScopes.contains scope) ≠ [] → s.HoldsFor call ac.username)
      (holds_lasting ac.username) ?_ ?_) fun s held => held ac rfl
    · intro s chance valid held _ _
      obtain ⟨advance, kept⟩ : Advance settle detect call s (s.perform prim call chance _).2 ∧ _ :=
        valid.authority_step ac.username ac.source ac.scopes
      refine ⟨advance, fun auth answered usable => ?_⟩
      obtain ⟨scope, member⟩ := List.exists_mem_of_ne_nil _ usable
      obtain ⟨approval, holds⟩ := held
      obtain ⟨among, allowed⟩ := List.mem_filter.mp member
      exact ⟨approval, (kept auth answered ⟨scope, among, allowed⟩).trans holds⟩
    · intro auth
      cases auth with
      | none => exact pure_ends
      | some auth =>
        by_cases useless : ac.scopes.filter (fun scope => auth.allowedScopes.contains scope) = []
        · simp only [Program.pure_bind, Program.pure_eq, if_pos useless]
          exact pure_ends
        · simp only [Program.pure_bind, if_neg useless]
          refine knowing (closing (holds_lasting ac.username) ?_) fun s held => held auth rfl useless
          intro s chance valid held fresh _
          obtain ⟨approval, holds⟩ := held
          exact valid.create_step fresh holds

theorem validateTriple (token resource : String) :
    (serverRules prim permitted settle detect call).Triple (fun _ => True) ((validateAccess token resource).bind fun _ => .pure ())
      fun _ _ => True := by
  apply begins (fun t s => s.Reads t) now_executes
  intro t
  exact closing (reads_lasting t) fun s chance valid _ _ _ => valid.validate_step token resource t

variable (grants : ∀ (s : Server) (chance : Chance) {β : Type} (operation : Section β), permitted s chance operation →
  s.Permits settle detect prim chance operation)

include grants

theorem refreshTriple (refreshToken clientId : String) (resource : Option String) (requested : Option (List String)) :
    (serverRules prim permitted settle detect call).Triple (fun _ => True)
      ((refresh refreshToken clientId resource requested).bind fun _ => .pure ()) fun _ _ => True := by
  apply begins (fun t s => s.Reads t) now_executes
  intro t
  apply asks (fun _ s => s.Clean detect) (reads_lasting t)
  · exact fun s chance valid reads _ may => valid.find_step reads (grants s chance _ may).2
  intro found
  cases found with
  | error e => exact pure_ends
  | ok grant =>
    apply asks (fun _ s => s.Clean detect) clean_lasting
    · intro s chance valid clean _ _
      obtain ⟨advance, -⟩ : Advance settle detect call s (s.perform prim call chance _).2 ∧ _ :=
        valid.authority_step grant.username grant.source grant.scopes
      exact ⟨advance, advance.promised.clean clean⟩
    · intro auth
      exact closing clean_lasting fun s chance valid clean fresh _ => valid.rotate_step fresh clean grant auth requested t

theorem callTriple {program : Program Section Unit} (made : Call prim program) :
    (serverRules prim permitted settle detect call).Triple (fun _ => True) program fun _ _ => True := by
  cases made with
  | single single =>
    apply begins fun _ _ => True
    · exact fun s chance valid _ _ may => ⟨valid.single_step single (grants s chance _ may), trivial⟩
    · exact fun _ => pure_ends
  | register clientName redirectUris source => exact registerTriple clientName redirectUris source
  | approve id username source granted => exact approveTriple id username source granted
  | exchange code clientId redirectUri codeVerifier resource => exact exchangeTriple code clientId redirectUri codeVerifier resource
  | refresh refreshToken clientId resource requested => exact refreshTriple grants refreshToken clientId resource requested
  | validate token resource => exact validateTriple token resource

theorem Server.consistent_run (reached : (serverSystem prim permitted).Reaches Server.New s) : Consistent settle detect s := by
  have sound : (serverSystem prim permitted).Sound Server.New (Consistent settle detect) (Promised detect) fun _ _ => True := by
    constructor
    · exact fun s new => ⟨new.consistent, fun _ => trivial⟩
    · rintro before after valid (⟨clock, later, rfl⟩ | rfl)
      · exact ⟨valid.wait later, fun _ _ => trivial⟩
      · exact ⟨valid.restart, fun _ _ => trivial⟩
    · exact fun _ _ _ _ _ _ _ _ _ => trivial
    · exact fun call program made => callTriple grants made
    · exact fun _ _ _ _ => trivial
  exact sound.reaches reached

theorem Server.lawful_run (reached : (serverSystem prim permitted).Reaches Server.New s) : Lawful settle detect s.log :=
  (Server.consistent_run grants reached).lawful

end Mcp
