import WolfStack.Mcp.Chain
import WolfStack.Mcp.Revocation

/-! Runs of the endpoint: handlers, restarts and changes to the accounts in any order. -/

namespace Mcp
open Effects
open Effects.Program (send)
open Std (TreeMap)

variable {prim : Primitives} {credentials : Credentials} {call : CallId}

def steady (prim : Primitives) (e : Endpoint) : {β : Type} → Section β → Prop
  | _, .createGrant code _ _ auth _ _ =>
    ∀ c ∈ e.ledger.consents, c.hash = prim.secretHash "code" code → auth.credentialFp = c.authority.credentialFp
  | _, _ => True

/-- A code is exchanged only while the account is as it was when the code was approved. -/
def steadfast (prim : Primitives) : EndpointPolicy := fun e _ operation =>
  match operation with
  | .first operation => steady prim e operation
  | .second _ => True

namespace Endpoint
variable {e : Endpoint} {α β : Type}

def Enduring (fact : Endpoint → Prop) : Prop := ∀ before after : Endpoint, before.Since after → fact before → fact after

abbrev endpointRules (prim : Primitives) (credentials : Credentials) (call : CallId) : Rules Endpoint Errand :=
  (endpointSystem prim credentials (steadfast prim)).rules (Chained prim) (fun _ => Since) call

theorem enduring_stable {fact : Endpoint → Prop} (enduring : Enduring fact) : (endpointRules prim credentials call).Stable fact := by
  rintro before after - - ((⟨clock, later, rfl⟩ | ⟨machine, rfl⟩ | rfl) | ⟨other, -, since⟩) held
  · exact enduring before _ ⟨.refl _, later⟩ held
  · exact enduring before _ ⟨.refl _, Int.le_refl _⟩ held
  · exact enduring before _ ⟨.refl _, Int.le_refl _⟩ held
  · exact enduring before after since held

theorem always_enduring : Enduring fun _ => True := fun _ _ _ _ => trivial

theorem Enduring.and {first second : Endpoint → Prop} (left : Enduring first) (right : Enduring second) :
    Enduring fun e => first e ∧ second e :=
  fun before after since held => ⟨left before after since held.1, right before after since held.2⟩

theorem clock_enduring (t : Int) : Enduring fun e => t ≤ e.clock := fun _ _ since past => Int.le_trans past since.clock

theorem found_enduring (username : String) (source : AuthSource) (authority : UserAuthority) (begun : Int) :
    Enduring fun e => e.ledger.Found call username source authority begun e.clock :=
  fun _ _ since found => found.mono since.extends_ since.clock

theorem offers_enduring (p : PendingAuth) : Enduring fun e => e.ledger.Offers p := fun _ _ since offers => offers.mono since.extends_

theorem redeemed_enduring (code : String) (ac : AuthCode) : Enduring (Redeemed prim code ac) := by
  rintro before after since ⟨c, consented, stands, r, redeemed, redeems⟩
  exact ⟨c, since.extends_.consents consented, stands, r, since.extends_.redemptions redeemed, redeems⟩

theorem granted_enduring (grant : Grant) : Enduring (Granted grant) := by
  rintro before after since ⟨m, member, like⟩
  exact ⟨m, since.extends_.makings member, like⟩

theorem accepted_enduring (token resource : String) (info : AccessInfo) : Enduring (Accepted prim token resource info) := by
  rintro before after since ⟨same, ⟨m, made, carries⟩, i, issued, issues⟩
  exact ⟨same, ⟨m, since.extends_.makings made, carries⟩, i, since.extends_.issues issued, issues.hash, issues.allowed,
    issues.found.mono since.extends_ (Int.le_refl _)⟩

theorem serve_since (chance : Chance) (operation : Page β) : e.Since (e.serve prim credentials call chance operation).2 := by
  cases operation <;> simp only [serve] <;> repeat' split
  all_goals constructor
  all_goals first | exact Int.le_refl _ | (constructor <;> simp)

def Settles (prim : Primitives) (credentials : Credentials) (call : CallId) (before : Endpoint → Prop) (operation : Errand β)
    (after : β → Endpoint → Prop) : Prop :=
  ∀ (e : Endpoint) chance, e.Chained prim → before e → e.Fresh prim chance → steadfast prim e operation →
    (e.answer prim credentials call chance operation).2.Chained prim ∧
      after (e.answer prim credentials call chance operation).1 (e.answer prim credentials call chance operation).2

theorem proceeds {operation : Errand β} {next : β → Program Errand α} {fact : Endpoint → Prop} (result : β → Endpoint → Prop)
    (enduring : Enduring fact) (settles : Settles prim credentials call fact operation result)
    (rest : ∀ value, (endpointRules prim credentials call).Triple (result value) (next value) fun _ _ => True) :
    (endpointRules prim credentials call).Triple fact (.request operation next) fun _ _ => True := by
  apply Rules.Triple.leading result (enduring_stable enduring)
  · rintro before value after chained held ⟨-, chance, fresh, may, done⟩
    obtain ⟨kept, holds⟩ := settles before chance chained held fresh may
    have since : before.Since (before.answer prim credentials call chance operation).2 := by
      cases operation with
      | first operation => exact perform_since operation
      | second operation => exact serve_since chance operation
    obtain rfl : value = (before.answer prim credentials call chance operation).1 := congrArg Prod.fst done
    obtain rfl : after = (before.answer prim credentials call chance operation).2 := congrArg Prod.snd done
    exact ⟨kept, since, holds⟩
  · exact rest

theorem over_ {fact : Endpoint → Prop} {value : α} : (endpointRules prim credentials call).Triple fact (.pure value) fun _ _ => True :=
  (Rules.Triple.pure value (enduring_stable always_enduring) fun _ _ _ => trivial).weaken fun _ _ _ => trivial

theorem plain_settles {fact : Endpoint → Prop} {operation : Section β} (fewer : ¬operation.Adding) :
    Settles prim credentials call fact (.first operation) fun _ _ => True :=
  fun _ _ chained _ _ _ => ⟨plain_kept chained fewer, trivial⟩

theorem drops {fact : Endpoint → Prop} {operation : Section β} {next : β → Program Errand α} (enduring : Enduring fact)
    (fewer : ¬operation.Adding) (rest : ∀ value, (endpointRules prim credentials call).Triple (fun _ => True) (next value) fun _ _ => True) :
    (endpointRules prim credentials call).Triple fact (.request (.first operation) next) fun _ _ => True :=
  proceeds (fun _ _ => True) enduring (plain_settles fewer) rest

theorem silent_settles {fact : Endpoint → Prop} {operation : Page β}
    (silent : ∀ (e : Endpoint) chance, (e.serve prim credentials call chance operation).2 = e) :
    Settles prim credentials call fact (.second operation) fun _ => fact := by
  intro e chance chained held _ _
  rw [answer, silent e chance]
  exact ⟨chained, held⟩

theorem now_settles : Settles prim credentials call (fun _ => True) (.first .now) fun t e => t ≤ e.clock :=
  fun _ _ chained _ _ _ => ⟨plain_kept chained id, Int.le_refl _⟩

theorem authority_settles (username : String) (source : AuthSource) (wanted : List String) (begun : Int) :
    Settles prim credentials call (fun e => begun ≤ e.clock) (.first (.authority username source wanted)) fun found e =>
      ∀ authority, found = some authority → e.ledger.Found call username source authority begun e.clock := by
  intro e chance chained past _ _
  refine ⟨plain_kept chained id, fun authority found => ⟨e.clock, ?_, past, Int.le_refl _⟩⟩
  simp only [answer, perform, Section.run] at found ⊢
  rw [found]
  exact List.mem_cons_self

theorem consume_settles (code clientId redirectUri codeVerifier : String) (resource : Option String) (t : Int) :
    Settles prim credentials call (fun _ => True) (.first (.consumeCode code clientId redirectUri codeVerifier resource t)) fun found e =>
      ∀ ac, found = .ok ac → ac.clientId = clientId ∧ Redeemed prim code ac e := by
  intro e chance chained _ _ _
  refine ⟨plain_kept chained id, fun ac taken => ?_⟩
  simp only [answer, perform, Section.run] at taken
  obtain ⟨there, client, address, verified⟩ := consumeCode_ok taken
  obtain ⟨c, consented, stands⟩ := chained.meets.inner.codes _ ac there
  refine ⟨client, c, (perform_since _).extends_.consents consented, stands, ⟨prim.secretHash "code" code, redirectUri, codeVerifier⟩, ?_, ?_⟩
  · simp only [answer, perform, Section.run, record, taken]
    exact List.mem_cons_self
  · exact ⟨stands.hash.symm, address.symm.trans stands.redirectUri, stands.codeChallenge ▸ verified⟩

theorem find_settles (refreshToken clientId : String) (resource : Option String) (t : Int) :
    Settles prim credentials call (fun _ => True) (.first (.findGrant refreshToken clientId resource t)) fun found e =>
      ∀ grant, found = .ok grant → Granted grant e := by
  intro e chance chained _ _ _
  refine ⟨plain_kept chained id, fun grant found => ?_⟩
  simp only [answer, perform, Section.run] at found
  obtain ⟨k, there⟩ := findGrant_ok found
  exact (chained.meets.inner.grants k grant there).2

theorem validate_settles (token resource : String) (t : Int) :
    Settles prim credentials call (fun _ => True) (.first (.validateAccess token resource t)) fun found e =>
      ∀ info, found = some info → Accepted prim token resource info e := by
  intro e chance chained _ _ _
  refine ⟨plain_kept chained id, fun info valid => ?_⟩
  simp only [answer, perform, Section.run] at valid
  obtain ⟨there, same⟩ := validateAccess_ok valid
  obtain ⟨made, issued⟩ := chained.meets.inner.access _ info there
  exact ⟨same, made, issued⟩

theorem take_settles (id : String) (approver : Option String) :
    Settles prim credentials call (fun _ => True) (.first (.takePending id approver)) fun found e =>
      ∀ p, found = some p → e.ledger.Offers p := by
  intro e chance chained _ _ _
  refine ⟨plain_kept chained (fun adding => adding), fun p taken => ?_⟩
  have there : (e.store.inner.prune e.clock).pending[id]? = some p := taken
  exact chained.meets.inner.pending id p ((Inner.prune_among e.clock e.store.inner).pending id p there)

theorem client_settles (clientId : String) : Settles prim credentials call (fun _ => True) (.second (.getClient clientId)) fun found e =>
    ∀ c, found = some c → (c.clientId, c.redirectUris) ∈ e.ledger.registered :=
  fun _ _ chained _ _ _ => ⟨chained, fun c there => chained.meets.inner.clients clientId c there⟩

theorem signIn_settles (ip username password totpCode : String) :
    Settles prim credentials call (fun _ => True) (.second (.verifyCredentials ip username password totpCode)) fun found e =>
      ∀ source, found = .ok source → ∃ begun, begun ≤ e.clock ∧ ⟨call, username, source, begun⟩ ∈ e.ledger.signIns := by
  intro e chance chained _ _ _
  refine ⟨@signIn_kept prim credentials call chance e chained ip username password totpCode, fun source accepted => ⟨e.clock, ?_⟩⟩
  simp only [answer, serve] at accepted ⊢
  split at accepted
  · cases accepted
  · cases accepted
    exact ⟨Int.le_refl _, List.mem_cons_self⟩

/-! ### Handlers -/

theorem create_settles {code clientId : String} {ac : AuthCode} {auth : UserAuthority} {t : Int} (client : ac.clientId = clientId) :
    Settles prim credentials call
      (fun e => Redeemed prim code ac e ∧ e.ledger.Found call ac.username ac.source auth t e.clock)
      (.first (.createGrant code clientId ac auth (ac.scopes.filter fun s => auth.allowedScopes.contains s) t)) fun _ _ => True := by
  rintro e chance chained ⟨redeemed, found⟩ fresh may
  subst client
  refine ⟨create_kept chained fresh redeemed may (fun scope member => ?_) found, trivial⟩
  obtain ⟨among, allowed⟩ := List.mem_filter.mp member
  exact ⟨among, by simpa using allowed⟩

theorem exchangeTriple (code clientId redirectUri codeVerifier : String) (resource : Option String) :
    (endpointRules prim credentials call).Triple (fun _ => True)
      ((exchangeCode code clientId redirectUri codeVerifier resource).first) fun _ _ => True := by
  apply proceeds _ always_enduring now_settles
  intro t
  apply proceeds (fun found e => t ≤ e.clock ∧ ∀ ac, found = .ok ac → ac.clientId = clientId ∧ Redeemed prim code ac e) (clock_enduring t)
  · intro e chance chained past fresh may
    obtain ⟨kept, taken⟩ := consume_settles code clientId redirectUri codeVerifier resource t e chance chained trivial fresh may
    exact ⟨kept, past, taken⟩
  intro found
  cases found with
  | error e => exact over_
  | ok ac =>
    by_cases client : ac.clientId = clientId
    · refine Rules.Triple.given (fun e => t ≤ e.clock ∧ Redeemed prim code ac e) ?_ fun e _ held => ⟨held.1, (held.2 ac rfl).2⟩
      · apply proceeds (fun found e => ∀ auth, found = some auth → Redeemed prim code ac e ∧
          e.ledger.Found call ac.username ac.source auth t e.clock) ((clock_enduring t).and (redeemed_enduring code ac))
        · rintro e chance chained ⟨past, redeemed⟩ fresh may
          obtain ⟨kept, found⟩ := authority_settles ac.username ac.source ac.scopes t e chance chained past fresh may
          exact ⟨kept, fun auth answered => ⟨redeemed_enduring code ac _ _ (perform_since _) redeemed, found auth answered⟩⟩
        intro auth
        cases auth with
        | none => exact over_
        | some auth =>
          by_cases useless : ac.scopes.filter (fun scope => auth.allowedScopes.contains scope) = []
          · simp only [Program.pure_bind, Program.pure_eq, if_pos useless, Program.first]
            exact over_
          · simp only [Program.pure_bind, if_neg useless]
            refine Rules.Triple.weaken ?_ fun e _ held => held auth rfl
            exact proceeds (fun _ _ => True) ((redeemed_enduring code ac).and (found_enduring ac.username ac.source auth t))
              (create_settles client) fun _ => over_
    · exact fun e _ held => absurd (held.2 ac rfl).1 client

theorem refreshTriple (refreshToken clientId : String) (resource : Option String) (requested : Option (List String)) :
    (endpointRules prim credentials call).Triple (fun _ => True)
      ((refresh refreshToken clientId resource requested).first) fun _ _ => True := by
  apply proceeds _ always_enduring now_settles
  intro t
  apply proceeds (fun found e => t ≤ e.clock ∧ ∀ grant, found = .ok grant → Granted grant e) (clock_enduring t)
  · intro e chance chained past fresh may
    obtain ⟨kept, found⟩ := find_settles refreshToken clientId resource t e chance chained trivial fresh may
    exact ⟨kept, past, found⟩
  intro found
  cases found with
  | error e => exact over_
  | ok grant =>
    refine Rules.Triple.given (fun e => t ≤ e.clock ∧ Granted grant e) ?_ fun e _ held => ⟨held.1, held.2 grant rfl⟩
    · apply proceeds (fun found e => Granted grant e ∧ ∀ auth, found = some auth →
        e.ledger.Found call grant.username grant.source auth t e.clock) ((clock_enduring t).and (granted_enduring grant))
      · rintro e chance chained ⟨past, granted⟩ fresh may
        obtain ⟨kept, found⟩ := authority_settles grant.username grant.source grant.scopes t e chance chained past fresh may
        exact ⟨kept, granted_enduring grant _ _ (perform_since _) granted, found⟩
      intro auth
      apply proceeds (fun _ _ => True)
      · apply (granted_enduring grant).and
        intro before after since found a same
        exact (found a same).mono since.extends_ since.clock
      · rintro e chance chained ⟨granted, found⟩ _ _
        exact ⟨rotate_kept chained requested granted found, trivial⟩
      · exact fun _ => over_

theorem tokenTriple (f : TokenForm) (resource : String) : (endpointRules prim credentials call).Triple (fun _ => True)
    ((token f resource).bind fun _ => .pure ()) fun _ _ => True := by
  unfold token
  cases f.clientId with
  | none => exact over_
  | some id =>
    apply proceeds _ always_enduring (client_settles id)
    intro client
    refine Rules.Triple.given (fun _ => True) ?_ fun _ _ _ => trivial
    cases client with
    | none => exact over_
    | some client =>
      dsimp only [Option.map_some, Program.pure_bind, Program.pure_eq, Program.bind_eq]
      split
      · exact over_
      · split
        · split
          · exact ((exchangeTriple _ _ _ _ _).bind fun _ => over_).bind fun _ => over_
          · exact over_
        · split
          · split
            · exact over_
            · split
              · exact over_
              · exact ((refreshTriple _ _ _ _).bind fun _ => over_).bind fun _ => over_
          · exact over_

theorem authorizeGetTriple (q : AuthorizeQuery) (resource from_ : String) :
    (endpointRules prim credentials call).Triple (fun _ => True) ((authorizeGet q resource from_).bind fun _ => .pure ())
      fun _ _ => True := by
  unfold authorizeGet
  cases q.clientId with
  | none => exact over_
  | some id =>
    apply proceeds _ always_enduring (client_settles id)
    intro client
    cases client with
    | none => exact over_
    | some client =>
      dsimp only [Program.pure_bind]
      split
      · exact over_
      · rename_i redirectUri registered
        split
        · exact over_
        · rename_i codeChallenge scopes _
          refine Rules.Triple.given (fun e => (client.clientId, client.redirectUris) ∈ e.ledger.registered) ?_ fun e _ held => held client rfl
          apply proceeds (fun _ e => (client.clientId, client.redirectUris) ∈ e.ledger.registered)
            (fun _ _ since member => since.extends_.registered member) (silent_settles fun _ _ => rfl)
          intro disabled
          cases disabled with
          | true => exact over_
          | false =>
            apply proceeds (fun _ e => (client.clientId, client.redirectUris) ∈ e.ledger.registered)
              (fun _ _ since member => since.extends_.registered member)
            · intro e chance chained member _ _
              have kept := @plain_kept prim credentials call chance e chained _ .now fun adding => adding
              exact ⟨kept, member⟩
            intro createdAt
            apply proceeds (fun _ _ => True) (fun _ _ since member => since.extends_.registered member)
            · intro e chance chained member _ _
              have listed := (Option.filter_eq_some_iff.mp registered).2
              exact ⟨begin_kept chained ⟨client.redirectUris, member, by simpa using listed⟩, trivial⟩
            · intro begun
              cases begun <;> exact over_

/-- The user has signed in, and this is what was found of the account then. -/
def SignedIn (call : CallId) (username : String) (source : AuthSource) (authority : UserAuthority) (e : Endpoint) : Prop :=
  ∃ begun, ⟨call, username, source, begun⟩ ∈ e.ledger.signIns ∧ e.ledger.Found call username source authority begun e.clock

theorem signedIn_enduring (username : String) (source : AuthSource) (authority : UserAuthority) :
    Enduring (SignedIn call username source authority) := by
  rintro before after since ⟨begun, signedIn, found⟩
  exact ⟨begun, since.extends_.signIns signedIn, found.mono since.extends_ since.clock⟩

theorem granted_allowed {form : ConsentForm} {pending : PendingAuth} {authority : UserAuthority} :
    ∀ scope ∈ form.granted pending authority, scope ∈ authority.allowedScopes := by
  intro scope member
  have may := (List.mem_filter.mp member).2
  simp only [Bool.and_eq_true, List.contains_iff_mem] at may
  exact may.2

theorem authorizePostTriple (form : ConsentForm) (ip : String) :
    (endpointRules prim credentials call).Triple (fun _ => True) ((authorizePost form ip).bind fun _ => .pure ()) fun _ _ => True := by
  apply drops always_enduring id
  intro peeked
  cases peeked with
  | none => exact over_
  | some pending =>
    dsimp only [Program.pure_bind]
    split
    · exact drops always_enduring id fun _ => over_
    · apply proceeds (fun _ _ => True) always_enduring (silent_settles fun _ _ => rfl)
      intro disabled
      cases disabled with
      | true => exact drops always_enduring id fun _ => over_
      | false =>
        apply proceeds _ always_enduring (signIn_settles ip form.username form.password form.totpCode)
        intro verified
        cases verified with
        | error message => exact over_
        | ok source =>
          refine Rules.Triple.given (fun e => ∃ begun, begun ≤ e.clock ∧ ⟨call, form.username, source, begun⟩ ∈ e.ledger.signIns) ?_
            fun e _ held => held source rfl
          apply proceeds (fun found e => ∀ authority, found = some authority → SignedIn call form.username source authority e)
          · rintro before after since ⟨begun, past, signedIn⟩
            exact ⟨begun, Int.le_trans past since.clock, since.extends_.signIns signedIn⟩
          · rintro e chance chained ⟨begun, past, signedIn⟩ fresh may
            obtain ⟨kept, read⟩ := authority_settles form.username source pending.scopes begun e chance chained past fresh may
            exact ⟨kept, fun authority found => ⟨begun, (perform_since _).extends_.signIns signedIn, read authority found⟩⟩
          intro authority
          cases authority with
          | none =>
            refine Rules.Triple.given (fun _ => True) ?_ fun _ _ _ => trivial
            exact drops always_enduring id fun _ => over_
          | some authority =>
            refine Rules.Triple.given (SignedIn call form.username source authority) ?_ fun e _ held => held authority rfl
            have signed := @signedIn_enduring call form.username source authority
            dsimp only [Program.pure_bind]
            split
            · exact over_
            · apply proceeds (fun found e => SignedIn call form.username source authority e ∧ ∀ p, found = some p → e.ledger.Offers p) signed
              · intro e chance chained signedIn fresh may
                obtain ⟨kept, offered⟩ := take_settles form.pendingId (some form.username) e chance chained trivial fresh may
                exact ⟨kept, signed _ _ (perform_since _) signedIn, offered⟩
              intro taken
              cases taken with
              | none => exact over_
              | some taken =>
                refine Rules.Triple.given (fun e => SignedIn call form.username source authority e ∧ e.ledger.Offers taken) ?_
                  fun e _ held => ⟨held.1, held.2 taken rfl⟩
                apply proceeds (fun _ e => SignedIn call form.username source authority e ∧ e.ledger.Offers taken)
                  (signed.and (offers_enduring taken))
                · intro e chance chained held _ _
                  have kept := @plain_kept prim credentials call chance e chained _ .now fun adding => adding
                  exact ⟨kept, held⟩
                intro t
                apply proceeds (fun _ _ => True) (signed.and (offers_enduring taken))
                · rintro e chance chained ⟨⟨begun, signedIn, found⟩, offers⟩ _ _
                  exact ⟨consent_kept chained t offers granted_allowed signedIn found, trivial⟩
                · intro issued
                  cases issued <;> exact over_

theorem authenticateTriple (token resource : String) :
    (endpointRules prim credentials call).Triple (fun _ => True) ((authenticate token resource).bind fun _ => .pure ()) fun _ _ => True := by
  unfold authenticate
  split
  · exact over_
  · split
    · exact proceeds (fun _ _ => True) always_enduring (silent_settles fun _ _ => rfl) fun _ => over_
    · apply proceeds _ always_enduring now_settles
      intro t
      apply proceeds (fun found e => t ≤ e.clock ∧ ∀ info, found = some info → Accepted prim token resource info e) (clock_enduring t)
      · intro e chance chained past fresh may
        obtain ⟨kept, valid⟩ := validate_settles token resource t e chance chained trivial fresh may
        exact ⟨kept, past, valid⟩
      intro found
      cases found with
      | none => exact over_
      | some info =>
        refine Rules.Triple.given (fun e => t ≤ e.clock ∧ Accepted prim token resource info e) ?_ fun e _ held => ⟨held.1, held.2 info rfl⟩
        apply proceeds (fun found e => Accepted prim token resource info e ∧ ∀ authority, found = some authority →
          e.ledger.Found call info.username info.source authority t e.clock) ((clock_enduring t).and (accepted_enduring token resource info))
        · rintro e chance chained ⟨past, accepted⟩ fresh may
          obtain ⟨kept, read⟩ := authority_settles info.username info.source info.scopes t e chance chained past fresh may
          exact ⟨kept, accepted_enduring token resource info _ _ (perform_since _) accepted, read⟩
        intro authority
        cases authority with
        | none => exact over_
        | some authority =>
          refine Rules.Triple.given (fun e => Accepted prim token resource info e ∧
            e.ledger.Found call info.username info.source authority t e.clock) ?_ fun e _ held => ⟨held.1, held.2 authority rfl⟩
          have enduring := (@accepted_enduring prim token resource info).and (@found_enduring call info.username info.source authority t)
          dsimp only [Program.pure_bind]
          split
          · exact drops enduring id fun _ => over_
          · rename_i unchanged
            apply proceeds (fun _ e => Accepted prim token resource info e ∧
              e.ledger.Found call info.username info.source authority t e.clock) enduring (silent_settles fun _ _ => rfl)
            intro client
            apply proceeds (fun _ _ => True) enduring
            · rintro e chance chained ⟨accepted, read⟩ _ _
              exact ⟨admit_kept chained accepted (not_not.mp unchanged) read, trivial⟩
            · exact fun _ => over_

theorem handlerTriple {program : Program Errand Unit} (made : Handler prim program) :
    (endpointRules prim credentials call).Triple (fun _ => True) program fun _ _ => True := by
  cases made with
  | single single fewer => exact drops always_enduring fewer fun _ => over_
  | register clientName redirectUris source =>
    unfold registerClient
    split
    · exact over_
    · split
      · exact over_
      · split
        · exact over_
        · apply drops always_enduring id
          intro t
          apply proceeds (fun _ _ => True) always_enduring
          · exact fun e chance chained _ _ _ => ⟨register_kept chained clientName redirectUris source t, trivial⟩
          · exact fun _ => over_
  | authorizeGet q resource from_ => exact authorizeGetTriple q resource from_
  | authorizePost form ip => exact authorizePostTriple form ip
  | token f resource => exact tokenTriple f resource
  | authenticate token resource => exact authenticateTriple token resource

theorem chained_run (reached : (endpointSystem prim credentials (steadfast prim)).Reaches New e) : e.Chained prim := by
  have sound : (endpointSystem prim credentials (steadfast prim)).Sound New (Chained prim) (fun _ => Since) fun _ _ => True := by
    constructor
    · exact fun e new => ⟨new.chained, fun _ => trivial⟩
    · rintro before after chained (⟨clock, later, rfl⟩ | ⟨machine, rfl⟩ | rfl)
      · exact ⟨chained.wait later, fun _ _ => trivial⟩
      · exact ⟨{ chained with }, fun _ _ => trivial⟩
      · exact ⟨chained.restart, fun _ _ => trivial⟩
    · exact fun _ _ _ _ _ _ _ _ _ => trivial
    · exact fun call program made => handlerTriple made
    · exact fun _ _ _ _ => trivial
  exact sound.reaches reached

end Endpoint

/-- Every request that is let in goes back to an approval. -/
theorem request_traces_back {e : Endpoint} (reached : (endpointSystem prim credentials (steadfast prim)).Reaches Endpoint.New e) :
    ∀ a ∈ e.ledger.admissions, ∃ c ∈ e.ledger.consents, ∃ r ∈ e.ledger.redemptions, ∃ i ∈ e.ledger.issues,
      Ledger.Traced prim e.ledger a c r i := (Endpoint.chained_run reached).backed

abbrev EndpointTurn := Turn Endpoint Errand CallId Unit

/-- Passwords are kept as they are. -/
def plainCredentials : Credentials where
  fingerprint parts := "/".intercalate parts
  verifyPassword password hash := password == hash
  verifyTotp _ _ := false

def machineOf (password : String) : Machine where
  authMode := "wolfstack"
  users := [⟨"paul", password, "", false, "admin", "", "", "", []⟩]
  shadow := none
  passwd := none
  group := none
  selfCluster := none
  loginDisabled := false
  isLockedOut _ := false
  validateKey _ := .error "invalid or expired API key"

def Endpoint.act (allowed : Endpoint → {β : Type} → Errand β → Bool) (call : CallId) (index : Nat) {β : Type} (e : Endpoint)
    (operation : Errand β) : Option (Endpoint × β) :=
  let chance := chanceAt index
  if e.boot = call.1 ∧ (∀ name ∈ chance.names samplePrimitives, name ∉ e.named) ∧ allowed e operation = true then
    some (e.answer samplePrimitives plainCredentials call chance operation).swap
  else none

theorem act_commits {allowed : Endpoint → {β : Type} → Errand β → Bool} {permitted : EndpointPolicy}
    (checked : ∀ (e : Endpoint) {β : Type} (operation : Errand β), allowed e operation = true → permitted e operation)
    (call : CallId) (index : Nat) {β : Type} (e : Endpoint) (operation : Errand β) (after : Endpoint) (value : β)
    (acted : e.act allowed call index operation = some (after, value)) :
    (endpointSystem samplePrimitives plainCredentials permitted).commits call e operation value after := by
  simp only [Endpoint.act] at acted
  split at acted
  · rename_i may
    obtain ⟨current, fresh, allowed⟩ := may
    refine ⟨current, chanceAt index, fresh, checked e operation allowed, ?_⟩
    exact (Prod.swap_eq_iff_eq_swap.mp (Option.some.inj acted)).symm
  · cases acted

def newEndpoint : Endpoint := ⟨OAuthStore.load ⟨[], []⟩, machineOf "one", 0, 0, [], .blank⟩

def approves_ : List EndpointTurn :=
  Turn.whole (0, 0) ((registerClient samplePrimitives (some "Agent") ["https://app.example.com/cb"] "198.51.100.1").bind fun _ => .pure ()).first 2 ++
    Turn.whole (0, 0) ((authorizeGet ⟨some "wsc_1", some "https://app.example.com/cb", some "code", some "S256", some sampleVerifier,
      some "https://ws.example.com/mcp", none, none⟩ "https://ws.example.com/mcp" "198.51.100.1").bind fun _ => .pure ()) 4 ++
    Turn.whole (0, 0) ((authorizePost ⟨"wsp_5", "approve", "paul", "one", "", ["read"]⟩ "198.51.100.1").bind fun _ => .pure ()) 7

def enters : List EndpointTurn :=
  Turn.whole (0, 0) ((token ⟨some "authorization_code", some "wsa_12", some "https://app.example.com/cb", some "wsc_1", some sampleVerifier,
      none, none, none⟩ "https://ws.example.com/mcp").bind fun _ => .pure ()) 5 ++
    Turn.whole (0, 0) ((authenticate "wsat_17" "https://ws.example.com/mcp").bind fun _ => .pure ()) 5

def setsPassword : EndpointTurn := .move fun e => some { e with machine := machineOf "two" }

variable {permitted : EndpointPolicy}

theorem enters_lawful : ∀ turn ∈ approves_ ++ enters, turn.Lawful (endpointSystem samplePrimitives plainCredentials permitted) := by
  simp [approves_, enters, Turn.whole, Turn.Lawful, endpointSystem, Handler.register, Handler.authorizeGet, Handler.authorizePost,
    Handler.token, Handler.authenticate]

theorem entersLater_lawful :
    ∀ turn ∈ approves_ ++ setsPassword :: enters, turn.Lawful (endpointSystem samplePrimitives plainCredentials permitted) := by
  intro turn member
  rcases List.mem_append.mp member with before | later
  · exact enters_lawful turn (List.mem_append_left _ before)
  · rcases List.mem_cons.mp later with rfl | after
    · exact fun before after moved => .inr (.inl ⟨machineOf "two", (Option.some.inj moved).symm⟩)
    · exact enters_lawful turn (List.mem_append_right _ after)

def steadyNow (e : Endpoint) : {β : Type} → Errand β → Bool
  | _, .first (.createGrant code _ _ auth _ _) =>
    e.ledger.consents.all fun c => c.hash ≠ samplePrimitives.secretHash "code" code || auth.credentialFp == c.authority.credentialFp
  | _, _ => true

theorem steadyNow_checked (e : Endpoint) {β : Type} (operation : Errand β) (may : steadyNow e operation = true) :
    steadfast samplePrimitives e operation := by
  cases operation with
  | second operation => trivial
  | first operation =>
    cases operation with
    | createGrant code clientId ac auth scopes t =>
      intro c member same
      have held := List.all_eq_true.mp may c member
      simpa [same] using held
    | _ => trivial

theorem request_traces_back_sample : ∃ e : Endpoint,
    (endpointSystem samplePrimitives plainCredentials (steadfast samplePrimitives)).Reaches Endpoint.New e ∧
      (!e.ledger.admissions.isEmpty) = true ∧ ∀ a ∈ e.ledger.admissions, ∃ c ∈ e.ledger.consents, ∃ r ∈ e.ledger.redemptions,
        ∃ i ∈ e.ledger.issues, Ledger.Traced samplePrimitives e.ledger a c r i := by
  obtain ⟨e, reached, passed⟩ := @conduct_reaches _ _ _ _ _ (endpointSystem samplePrimitives plainCredentials (steadfast samplePrimitives))
    (fun call index _ e operation => e.act steadyNow call index operation) Endpoint.New newEndpoint ⟨rfl, rfl⟩ (act_commits steadyNow_checked)
    (approves_ ++ enters) enters_lawful (fun e => !e.ledger.admissions.isEmpty) (by decide +kernel)
  exact ⟨e, reached, passed, request_traces_back reached⟩

/-- The password is changed between approval and exchange, and the request is let in. -/
theorem password_changed_between : ¬∀ e : Endpoint,
    (endpointSystem samplePrimitives plainCredentials fun _ _ _ => True).Reaches Endpoint.New e →
      ∀ a ∈ e.ledger.admissions, ∃ c ∈ e.ledger.consents, ∃ r ∈ e.ledger.redemptions, ∃ i ∈ e.ledger.issues,
        Ledger.Traced samplePrimitives e.ledger a c r i := by
  intro traces
  obtain ⟨e, reached, passed⟩ := @conduct_reaches _ _ _ _ _ (endpointSystem samplePrimitives plainCredentials fun _ _ _ => True)
    (fun call index _ e operation => e.act (fun _ _ _ => true) call index operation) Endpoint.New newEndpoint ⟨rfl, rfl⟩
    (act_commits fun _ _ _ _ => trivial) (approves_ ++ setsPassword :: enters) entersLater_lawful
    (fun e => e.ledger.admissions.any fun a => e.ledger.consents.all fun c => a.authority.credentialFp ≠ c.authority.credentialFp)
    (by decide +kernel)
  obtain ⟨a, member, changed⟩ := List.any_eq_true.mp passed
  obtain ⟨c, consented, r, -, i, -, traced⟩ := traces e reached a member
  have apart := List.all_eq_true.mp changed c consented
  exact absurd traced.unchanged (by simpa using apart)

end Mcp
