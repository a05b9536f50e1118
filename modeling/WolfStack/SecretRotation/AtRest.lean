import WolfStack.Auth.ClusterSecret

/-! The credentials a node keeps sealed under its cluster secret, in six stores, and
the pass that re-keys them when the secret is rotated. Sealing is taken as ideal: a
sealed value opens under the secret it was sealed with and under no other. -/

namespace SecretRotation
open Auth

/-- A stored credential: text that no secret protects (empty, plain or obfuscated
with the built-in key), a sealed one, or bytes that nothing opens. -/
inductive Field where
  | plain (text : String)
  | sealed (secret plaintext : String)
  | corrupt (bytes : String)
deriving DecidableEq, Repr

def Field.reads (secret : String) : Field → Option String
  | .plain text => some text
  | .sealed under plaintext => if under = secret then some plaintext else none
  | .corrupt _ => none

/-- `reencrypt_v2_field`, and what the other stores do to one of their values. -/
def reencryptField (old new : String) : Field → Field
  | .sealed under plaintext => .sealed (if under = old then new else under) plaintext
  | untouched => untouched

def Field.sealedUnder (secret : String) : Field → Bool
  | .sealed under _ => under = secret
  | _ => false

inductive Store where
  | sqlConnections
  | oidc
  | integrations
  | dnsProviders
  | cloudProviders
  | xoTokens
deriving DecidableEq, Repr

/-- Whether a store is written to a temporary file that is then renamed over it. -/
def Store.savesAtomically : Store → Bool
  | .sqlConnections | .integrations | .xoTokens => true
  | .oidc | .dnsProviders | .cloudProviders => false

def Store.label : Store → String
  | .sqlConnections => "sql-connections"
  | .oidc => "oidc"
  | .integrations => "integrations"
  | .dnsProviders => "dns-providers"
  | .cloudProviders => "cloud-providers"
  | .xoTokens => "xo-tokens"

inductive PassFate where
  | saved
  | unread
  | unsaved (error : String)
  | torn (error : String)
deriving DecidableEq, Repr

/-- The fields a store holds afterwards, and how many were re-keyed. A file torn by
its write no longer parses, so it holds none. -/
def reencryptAtRest (store : Store) (old new : String) (fate : PassFate) (fields : List Field) :
    List Field × Except String Nat :=
  let rekeyed := fields.countP (Field.sealedUnder old)
  if old = new ∨ fate = .unread ∨ rekeyed = 0 then (fields, .ok 0)
  else match fate with
    | .unsaved e => (fields, .error e)
    | .torn e => (if store.savesAtomically then fields else [], .error e)
    | _ => (fields.map (reencryptField old new), .ok rekeyed)

abbrev Stores := Store → List Field

def Store.all : List Store := [.sqlConnections, .oidc, .integrations, .dnsProviders, .cloudProviders, .xoTokens]

structure ReencryptReport where
  rekeyed : Store → Nat
  errors : List String

/-- Every store has its own pass, whatever becomes of the others. -/
def reencryptAllAtRest (old new : String) (fates : Store → PassFate) (stores : Stores) : Stores × ReencryptReport :=
  let pass := fun store => reencryptAtRest store old new (fates store) (stores store)
  (fun store => (pass store).1,
    { rekeyed := fun store => (pass store).2.toOption.getD 0
      errors := Store.all.filterMap fun store => match (pass store).2 with
        | .error e => some s!"{store.label}: {e}"
        | .ok _ => none })

/-- The secret under which a store with values sealed under `old` holds them after
its pass, if it still holds them. -/
def keyLeft (store : Store) (old new : String) (fate : PassFate) : Option String :=
  match fate with
  | .saved => some new
  | .unread => some old
  | .unsaved _ => some old
  | .torn _ => if old = new ∨ store.savesAtomically then some old else none

/-- Every credential that could be read under one secret reads the same under another. -/
def Preserved (before : List Field) (old : String) (after : List Field) (new : String) : Prop :=
  ∀ (position : Nat) (field : Field) (text : String), before[position]? = some field → field.reads old = some text →
    ∃ kept, after[position]? = some kept ∧ kept.reads new = some text

variable {store : Store} {old new final : String} {fate : PassFate} {fields : List Field}

theorem reads_reencryptField (field : Field) (text : String) (reads : field.reads old = some text) :
    (reencryptField old new field).reads new = some text := by
  cases field with
  | plain kept => exact reads
  | corrupt bytes => cases reads
  | sealed under plaintext =>
    simp only [Field.reads] at reads
    split at reads
    · rename_i same
      simp only [reencryptField, Field.reads, if_pos same, if_true]
      exact reads
    · cases reads

theorem preserved_same : Preserved fields old fields final ↔
    ((∃ text, Field.sealed old text ∈ fields) → old = final) := by
  constructor
  · rintro preserved ⟨text, member⟩
    obtain ⟨position, found⟩ := List.mem_iff_getElem?.mp member
    obtain ⟨kept, same, reads⟩ := preserved position (.sealed old text) text found (if_pos rfl)
    rw [found, Option.some.injEq] at same
    subst same
    by_contra other
    simp only [Field.reads, if_neg other] at reads
    cases reads
  · intro settled position field text found reads
    refine ⟨field, found, ?_⟩
    cases field with
    | plain kept => exact reads
    | corrupt bytes => cases reads
    | sealed under plaintext =>
      simp only [Field.reads] at reads ⊢
      split at reads
      · rename_i same
        subst same
        rw [if_pos (settled ⟨plaintext, List.mem_of_getElem? found⟩)]
        exact reads
      · cases reads

theorem countP_sealedUnder : fields.countP (Field.sealedUnder old) = 0 ↔ ¬∃ text, Field.sealed old text ∈ fields := by
  rw [List.countP_eq_zero]
  constructor
  · rintro none ⟨text, member⟩
    exact none _ member (by simp [Field.sealedUnder])
  · intro none field member marked
    cases field with
    | plain text => cases marked
    | corrupt bytes => cases marked
    | sealed under text =>
      simp only [Field.sealedUnder, decide_eq_true_eq] at marked
      subst marked
      exact none ⟨text, member⟩

theorem preserved_rekeyed (some_sealed : ∃ text, Field.sealed old text ∈ fields) :
    Preserved fields old (fields.map (reencryptField old new)) final ↔ new = final := by
  constructor
  · intro preserved
    obtain ⟨text, member⟩ := some_sealed
    obtain ⟨position, found⟩ := List.mem_iff_getElem?.mp member
    obtain ⟨kept, same, reads⟩ := preserved position (.sealed old text) text found (if_pos rfl)
    rw [List.getElem?_map, found, Option.map_some, Option.some.injEq] at same
    subst same
    by_contra other
    simp only [reencryptField, if_true, Field.reads, if_neg other] at reads
    cases reads
  · rintro rfl position field text found reads
    refine ⟨reencryptField old new field, ?_, reads_reencryptField field text reads⟩
    rw [List.getElem?_map, found, Option.map_some]

theorem preserved_lost (some_sealed : ∃ text, Field.sealed old text ∈ fields) : ¬Preserved fields old [] final := by
  intro preserved
  obtain ⟨text, member⟩ := some_sealed
  obtain ⟨position, found⟩ := List.mem_iff_getElem?.mp member
  obtain ⟨kept, same, -⟩ := preserved position (.sealed old text) text found (if_pos rfl)
  cases same

/-- One store's pass, and then another secret: its credentials read the same exactly
when that secret is the one its sealed values were left under. -/
theorem preserved_reencryptAtRest :
    Preserved fields old (reencryptAtRest store old new fate fields).1 final ↔
      ((∃ text, Field.sealed old text ∈ fields) → keyLeft store old new fate = some final) := by
  by_cases holds : ∃ text, Field.sealed old text ∈ fields
  · have counted : fields.countP (Field.sealedUnder old) ≠ 0 := fun none => countP_sealedUnder.mp none holds
    have same : Preserved fields old fields final ↔ old = final :=
      preserved_same.trans ⟨fun settled => settled holds, fun equal _ => equal⟩
    simp only [holds, true_implies]
    by_cases unchanged : old = new
    · subst unchanged
      simp only [reencryptAtRest, true_or, if_true, same]
      cases fate with
      | saved => simp [keyLeft]
      | unread => simp [keyLeft]
      | unsaved e => simp [keyLeft]
      | torn e => simp [keyLeft]
    · cases fate with
      | unread => simp [reencryptAtRest, keyLeft, same]
      | saved => simp [reencryptAtRest, keyLeft, unchanged, counted, preserved_rekeyed holds]
      | unsaved e => simp [reencryptAtRest, keyLeft, unchanged, counted, same]
      | torn e =>
        cases atomic : store.savesAtomically with
        | true => simp [reencryptAtRest, keyLeft, unchanged, counted, same, atomic]
        | false => simp [reencryptAtRest, keyLeft, unchanged, counted, atomic, preserved_lost holds]
  · have counted : fields.countP (Field.sealedUnder old) = 0 := countP_sealedUnder.mpr holds
    simp only [reencryptAtRest, counted, or_true, if_true, preserved_same]
    exact ⟨fun _ found => absurd found holds, fun _ found => absurd found holds⟩

end SecretRotation
