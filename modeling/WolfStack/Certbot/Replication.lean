import Mathlib.Data.List.Infix
import Mathlib.Logic.Function.Basic

/-! Replicas of certificates, after `certbot/replication.rs`: a push puts four files in place, one after
the other, and then files a record; a prune removes what an owner gave up. Calls overlap, fail and are
stopped anywhere. What can be relied on all the same? Which lineages certbot renews here stays as it is. -/

open scoped List

namespace Certbot

inductive Pem where
  | cert
  | chain
  | fullchain
  | privkey
deriving DecidableEq

structure CertBundle where
  name : String
  certPem : String
  chainPem : String
  fullchainPem : String
  privkeyPem : String
  digest : String
  expires : String
  sourceNodeId : String
  sourceHostname : String
deriving DecidableEq

structure ReplicaRecord where
  name : String
  sourceNodeId : String
  sourceHostname : String
  digest : String
  receivedAt : String
  expires : String

/-- SHA-256 of chain and key, and the lineages that certbot renews here. -/
structure Setup where
  digestOf : String → String → String
  isLocallyOwned : String → Bool

def CertBundle.pem (b : CertBundle) : Pem → String
  | .cert => b.certPem
  | .chain => b.chainPem
  | .fullchain => b.fullchainPem
  | .privkey => b.privkeyPem

/-! ### What a bundle is checked for -/

def contains (text part : String) : Bool := decide (part.toList <:+: text.toList)

def isSafeCertName (name : String) : Bool :=
  name ≠ "" && name.utf8ByteSize ≤ 255 && name ≠ "README" && name.toList.head? ≠ some '.' && !contains name ".." &&
    name.toList.all fun c => c.isAlphanum || c = '-' || c = '_' || c = '.'

def validatePem (body label what : String) : Except String Unit :=
  if contains body s!"-----BEGIN {label}-----" = true then .ok () else .error s!"{what} does not contain a PEM {label} block"

def validatePrivateKey (body : String) : Except String Unit :=
  if ["PRIVATE KEY", "RSA PRIVATE KEY", "EC PRIVATE KEY"].any (fun l => contains body s!"-----BEGIN {l}-----") = true then .ok ()
  else .error "privkey.pem does not contain a PEM private key block"

/-- `apply_bundle`, up to where it looks at the files that are there. -/
def Setup.check (setup : Setup) (b : CertBundle) : Except String Unit :=
  if isSafeCertName b.name = false then .error s!"unsafe certificate name '{b.name}'"
  else if setup.isLocallyOwned b.name = true then
    .error (s!"'{b.name}' is issued and renewed by THIS node (certbot renewal config present) — refusing to overwrite it with a " ++
      s!"replica from {b.sourceHostname}. Stop replicating this cert from the other node, or delete the local lineage first.")
  else if setup.digestOf b.fullchainPem b.privkeyPem ≠ b.digest then
    .error (s!"digest mismatch for '{b.name}' (sent {b.digest}, computed {setup.digestOf b.fullchainPem b.privkeyPem}) — " ++
      "payload corrupt, not written")
  else do
    validatePem b.certPem "CERTIFICATE" "cert.pem"
    validatePem b.fullchainPem "CERTIFICATE" "fullchain.pem"
    validatePrivateKey b.privkeyPem

/-! ### The calls -/

/-- The call that holds the lock of the store, with what it has still to do. -/
inductive Holder where
  | writes (b : CertBundle) (left : List Pem)
  | removes (owner : String) (keep doomed removed : List String)

/-- What the last step has made of a call. -/
inductive Outcome where
  | running
  | unchanged (b : CertBundle)
  | installed (b : CertBundle)
  | failed
  | removed (owner : String) (keep : List String) (name : String)

/-- A node that is pushed to. A file is missing or has a text; the store is missing, or cannot be parsed,
where it is none. Calls that compare have read `fullchain.pem`, and others wait for the lock. -/
structure Receiver where
  files : String → Pem → Option String
  store : Option (List ReplicaRecord)
  comparing : List (CertBundle × String)
  waiting : List CertBundle
  holder : Option Holder
  outcome : Outcome

inductive ReceiverStep where
  | push (b : CertBundle)
  | compare (b : CertBundle) (fullchain : String)
  | enter (b : CertBundle)
  | write
  | record (receivedAt : String)
  | prune (owner : String) (keep : List String)
  | remove (left : Pem → Bool)
  | forget
  | fail (torn : Bool)
  | stop (torn : Bool)

def ReplicaRecord.of (b : CertBundle) (receivedAt : String) : ReplicaRecord :=
  ⟨b.name, b.sourceNodeId, b.sourceHostname, b.digest, receivedAt, b.expires⟩

def upsert (rec : ReplicaRecord) : List ReplicaRecord → List ReplicaRecord
  | [] => [rec]
  | r :: rest => if r.name = rec.name then rec :: rest else r :: upsert rec rest

def doomedNames (records : List ReplicaRecord) (owner : String) (keep : List String) : List String :=
  (records.filter fun r => r.sourceNodeId = owner ∧ r.name ∉ keep).map fun r => r.name

/-- The order in which files are renamed. -/
def renamed : List Pem := [.privkey, .cert, .chain, .fullchain]

namespace Receiver

def records (s : Receiver) : List ReplicaRecord := s.store.getD []

/-- A file as it is compared, empty where it cannot be read. -/
def body (s : Receiver) (name : String) (pem : Pem) : String := (s.files name pem).getD ""

/-- The test that ends a push early. -/
def isUnchanged (setup : Setup) (s : Receiver) (b : CertBundle) (fullchain : String) : Bool :=
  fullchain ≠ "" && s.body b.name .privkey ≠ "" && setup.digestOf fullchain (s.body b.name .privkey) = b.digest

/-- What this node reports to hold of a lineage. -/
def localState (setup : Setup) (s : Receiver) (name : String) : Option String :=
  if (s.records.any fun r => r.name = name) && isSafeCertName name && s.body name .fullchain ≠ "" && s.body name .privkey ≠ "" then
    some (setup.digestOf (s.body name .fullchain) (s.body name .privkey))
  else none

/-- A store that was being written may be left unreadable. -/
def released (s : Receiver) (torn : Bool) : Receiver :=
  { s with store := if torn = true then none else s.store, holder := none, outcome := .failed }

/-- One step of a call, or a stop of the process, where there is a call that can make it. -/
def step (setup : Setup) (s : Receiver) : ReceiverStep → Receiver
  | .push b =>
    match setup.check b with
    | .error _ => { s with outcome := .failed }
    | .ok () => { s with comparing := (b, s.body b.name .fullchain) :: s.comparing, outcome := .running }
  | .compare b fullchain =>
    if (b, fullchain) ∈ s.comparing then
      let rest := s.comparing.erase (b, fullchain)
      if s.isUnchanged setup b fullchain = true then { s with comparing := rest, outcome := .unchanged b }
      else { s with comparing := rest, waiting := b :: s.waiting, outcome := .running }
    else s
  | .enter b =>
    if b ∈ s.waiting ∧ s.holder.isNone = true then
      { s with waiting := s.waiting.erase b, holder := some (.writes b renamed), outcome := .running }
    else s
  | .write =>
    match s.holder with
    | some (.writes b (pem :: left)) =>
      { s with
        files := Function.update s.files b.name (Function.update (s.files b.name) pem (some (b.pem pem)))
        holder := some (.writes b left)
        outcome := .running }
    | _ => s
  | .record receivedAt =>
    match s.holder with
    | some (.writes b []) => { s with store := some (upsert (.of b receivedAt) s.records), holder := none, outcome := .installed b }
    | _ => s
  | .prune owner keep =>
    if s.holder.isNone = true then
      match doomedNames s.records owner keep with
      | [] => { s with outcome := .running }
      | doomed => { s with holder := some (.removes owner keep doomed []), outcome := .running }
    else s
  | .remove left =>
    match s.holder with
    | some (.removes owner keep (name :: doomed) removed) =>
      if setup.isLocallyOwned name = true then { s with holder := some (.removes owner keep doomed removed), outcome := .running }
      else { s with
        files := if isSafeCertName name = true then
            Function.update s.files name fun pem => if left pem = true then s.files name pem else none
          else s.files
        holder := some (.removes owner keep doomed (name :: removed))
        outcome := .removed owner keep name }
    | _ => s
  | .forget =>
    match s.holder with
    | some (.removes _ _ [] removed) =>
      { s with store := some (s.records.filter fun r => r.name ∉ removed), holder := none, outcome := .running }
    | _ => s
  | .fail torn => if s.holder.isSome = true then s.released torn else s
  | .stop torn => { s.released torn with comparing := [], waiting := [] }

/-- A node as it starts, with any files and any store. -/
def begun (files : String → Pem → Option String) (store : Option (List ReplicaRecord)) : Receiver :=
  ⟨files, store, [], [], none, .running⟩

/-- What can be relied on, whatever fails, if all the bundles that were pushed are of a kind. -/
structure Guarded (setup : Setup) (sent : CertBundle → Prop) (start s : Receiver) : Prop where
  installed : ∀ b, s.outcome = .installed b → (∀ pem, s.files b.name pem = some (b.pem pem)) ∧ s.localState setup b.name = some b.digest
  owned : ∀ name, setup.isLocallyOwned name = true → s.files name = start.files name
  sourced : ∀ name pem text, s.files name pem = some text → start.files name pem = some text ∨
    ∃ b, sent b ∧ setup.check b = .ok () ∧ b.name = name ∧ b.pem pem = text
  rightful : ∀ owner keep name, s.outcome = .removed owner keep name → name ∉ keep ∧ setup.isLocallyOwned name = false ∧
    ∃ r ∈ s.records, r.name = name ∧ r.sourceNodeId = owner
  unique : (start.records.Pairwise fun r other => r.name ≠ other.name) → s.records.Pairwise fun r other => r.name ≠ other.name

end Receiver

/-! ### What the checks say -/

variable {setup : Setup} {b : CertBundle}

theorem validatePem_shown {body what : String} (valid : validatePem body "CERTIFICATE" what = .ok ()) : body ≠ "" := by
  rintro rfl
  rw [validatePem, if_neg (by decide +kernel)] at valid
  cases valid

theorem validatePrivateKey_shown {body : String} (valid : validatePrivateKey body = .ok ()) : body ≠ "" := by
  rintro rfl
  rw [validatePrivateKey, if_neg (by decide +kernel)] at valid
  cases valid

theorem check_ok (checked : setup.check b = .ok ()) : isSafeCertName b.name = true ∧ setup.isLocallyOwned b.name = false ∧
    setup.digestOf b.fullchainPem b.privkeyPem = b.digest ∧ b.fullchainPem ≠ "" ∧ b.privkeyPem ≠ "" := by
  rw [Setup.check] at checked
  split at checked
  · cases checked
  · rename_i safe
    split at checked
    · cases checked
    · rename_i foreign
      split at checked
      · cases checked
      · rename_i digest
        cases cert : validatePem b.certPem "CERTIFICATE" "cert.pem" with
        | error e =>
          rw [cert] at checked
          cases checked
        | ok _ =>
          cases chain : validatePem b.fullchainPem "CERTIFICATE" "fullchain.pem" with
          | error e =>
            rw [cert, chain] at checked
            cases checked
          | ok _ =>
            rw [cert, chain] at checked
            exact ⟨Bool.of_not_eq_false safe, Bool.of_not_eq_true foreign, not_not.mp digest, validatePem_shown chain,
              validatePrivateKey_shown checked⟩

/-! ### Records -/

theorem mem_upsert {rec r : ReplicaRecord} {records : List ReplicaRecord} (member : r ∈ upsert rec records) :
    r = rec ∨ r ∈ records := by
  induction records with
  | nil => exact .inl (List.mem_singleton.mp member)
  | cons first rest ih =>
    rw [upsert] at member
    split at member
    · exact (List.mem_cons.mp member).imp_right (List.mem_cons_of_mem _)
    · rcases List.mem_cons.mp member with rfl | later
      · exact .inr List.mem_cons_self
      · exact (ih later).imp_right (List.mem_cons_of_mem _)

theorem upsert_mem (rec : ReplicaRecord) (records : List ReplicaRecord) : rec ∈ upsert rec records := by
  induction records with
  | nil => exact List.mem_singleton_self _
  | cons first rest ih =>
    rw [upsert]
    split
    · exact List.mem_cons_self
    · exact List.mem_cons_of_mem _ ih

theorem upsert_unique {rec : ReplicaRecord} {records : List ReplicaRecord}
    (unique : records.Pairwise fun r other => r.name ≠ other.name) : (upsert rec records).Pairwise fun r other => r.name ≠ other.name := by
  induction unique with
  | nil => exact List.pairwise_singleton _ _
  | @cons first rest apart others ih =>
    rw [upsert]
    split
    · rename_i same
      exact List.pairwise_cons.mpr ⟨fun other member => same ▸ apart other member, others⟩
    · rename_i other
      refine List.pairwise_cons.mpr ⟨fun r member => ?_, ih⟩
      rcases mem_upsert member with rfl | old
      · exact other
      · exact apart r old

/-! ### What every step keeps -/

namespace Receiver
variable {sent : CertBundle → Prop} {start s : Receiver}

/-- What is pushed has passed its checks, and what the lock's holder has done is still so. -/
structure Sound (setup : Setup) (sent : CertBundle → Prop) (start s : Receiver) : Prop extends Guarded setup sent start s where
  comparing : ∀ c ∈ s.comparing, sent c.1 ∧ setup.check c.1 = .ok ()
  waiting : ∀ b ∈ s.waiting, sent b ∧ setup.check b = .ok ()
  writes : ∀ b left, s.holder = some (.writes b left) → sent b ∧ setup.check b = .ok () ∧ ∀ pem, pem ∉ left → s.files b.name pem = some (b.pem pem)
  removes : ∀ owner keep doomed removed, s.holder = some (.removes owner keep doomed removed) →
    ∀ name ∈ doomed, name ∉ keep ∧ ∃ r ∈ s.records, r.name = name ∧ r.sourceNodeId = owner

/-- A step that leaves the files alone, and the records at most loses. -/
theorem Guarded.same (guarded : Guarded setup sent start s) {after : Receiver} (files : after.files = s.files)
    (records : after.records <+ s.records) (plain : after.outcome = .running ∨ after.outcome = .failed ∨ ∃ b, after.outcome = .unchanged b) :
    Guarded setup sent start after := by
  constructor
  case installed =>
    intro b same
    rw [same] at plain
    rcases plain with impossible | impossible | ⟨_, impossible⟩ <;> cases impossible
  case owned => exact files ▸ guarded.owned
  case sourced => exact files ▸ guarded.sourced
  case rightful =>
    intro owner keep name same
    rw [same] at plain
    rcases plain with impossible | impossible | ⟨_, impossible⟩ <;> cases impossible
  case unique => exact fun apart => (guarded.unique apart).sublist records

theorem reported (checked : setup.check b = .ok ()) (full : ∀ pem, s.files b.name pem = some (b.pem pem))
    (known : ∃ r ∈ s.records, r.name = b.name) : s.localState setup b.name = some b.digest := by
  obtain ⟨safe, -, digest, chain, key⟩ := check_ok checked
  obtain ⟨r, member, named⟩ := known
  have any : (s.records.any fun r => r.name = b.name) = true := List.any_eq_true.mpr ⟨r, member, decide_eq_true named⟩
  have texts (pem : Pem) : s.body b.name pem = b.pem pem := by rw [body, full, Option.getD_some]
  rw [localState, any, safe, texts, texts]
  simp [CertBundle.pem, chain, key, digest]

theorem Guarded.free (guarded : Guarded setup sent start s) (free : s.holder = none) (comparing : ∀ c ∈ s.comparing, sent c.1 ∧ setup.check c.1 = .ok ())
    (waiting : ∀ b ∈ s.waiting, sent b ∧ setup.check b = .ok ()) : Sound setup sent start s :=
  ⟨guarded, comparing, waiting, fun _ _ held => (by rw [free] at held; cases held), fun _ _ _ _ held => by rw [free] at held; cases held⟩

theorem Guarded.freed (guarded : Guarded setup sent start s) {after : Receiver} (files : after.files = s.files)
    (records : after.records <+ s.records) (plain : after.outcome = .running ∨ after.outcome = .failed ∨ ∃ b, after.outcome = .unchanged b)
    (free : after.holder = none) (comparing : ∀ c ∈ after.comparing, sent c.1 ∧ setup.check c.1 = .ok ())
    (waiting : ∀ b ∈ after.waiting, sent b ∧ setup.check b = .ok ()) : Sound setup sent start after :=
  (guarded.same files records plain).free free comparing waiting

theorem Sound.write (sound : Sound setup sent start s) {pem : Pem} {left : List Pem} (held : s.holder = some (.writes b (pem :: left))) :
    Sound setup sent start { s with
      files := Function.update s.files b.name (Function.update (s.files b.name) pem (some (b.pem pem)))
      holder := some (.writes b left)
      outcome := .running } := by
  obtain ⟨pushed, checked, done⟩ := sound.writes b _ held
  refine ⟨⟨fun _ impossible => (by cases impossible), fun name owns => ?_, fun name other text there => ?_,
    fun _ _ _ impossible => (by cases impossible), sound.unique⟩, sound.comparing, sound.waiting, ?_, fun _ _ _ _ impossible => by cases impossible⟩
  · have apart : name ≠ b.name := by
      rintro rfl
      rw [(check_ok checked).2.1] at owns
      cases owns
    dsimp only
    rw [Function.update_of_ne apart]
    exact sound.owned name owns
  · dsimp only at there
    by_cases here : name = b.name
    · subst here
      rw [Function.update_self] at there
      by_cases same : other = pem
      · rw [same, Function.update_self] at there
        exact .inr ⟨b, pushed, checked, rfl, same ▸ Option.some.inj there⟩
      · rw [Function.update_of_ne same] at there
        exact sound.sourced _ other text there
    · rw [Function.update_of_ne here] at there
      exact sound.sourced name other text there
  · rintro _ _ ⟨⟩
    refine ⟨pushed, checked, fun other absent => ?_⟩
    dsimp only
    rw [Function.update_self]
    by_cases same : other = pem
    · rw [same, Function.update_self]
    · rw [Function.update_of_ne same]
      exact done other fun member => (List.mem_cons.mp member).elim same absent

theorem Sound.record (sound : Sound setup sent start s) (held : s.holder = some (.writes b [])) (receivedAt : String) :
    Sound setup sent start { s with store := some (upsert (.of b receivedAt) s.records), holder := none, outcome := .installed b } := by
  obtain ⟨-, checked, done⟩ := sound.writes b _ held
  have full (pem : Pem) : s.files b.name pem = some (b.pem pem) := done pem List.not_mem_nil
  refine Guarded.free ⟨?_, sound.owned, sound.sourced, fun _ _ _ impossible => (by cases impossible), fun apart => upsert_unique (sound.unique apart)⟩
    rfl sound.comparing sound.waiting
  rintro _ ⟨⟩
  exact ⟨full, reported checked full ⟨_, upsert_mem _ _, rfl⟩⟩

theorem Sound.remove (sound : Sound setup sent start s) {owner name : String} {keep doomed removed : List String}
    (held : s.holder = some (.removes owner keep (name :: doomed) removed)) (foreign : setup.isLocallyOwned name = false) (left : Pem → Bool) :
    Sound setup sent start { s with
      files := if isSafeCertName name = true then
          Function.update s.files name fun pem => if left pem = true then s.files name pem else none
        else s.files
      holder := some (.removes owner keep doomed (name :: removed))
      outcome := .removed owner keep name } := by
  have listed := sound.removes _ _ _ _ held
  have fewer (other : String) (pem : Pem) (text : String) (there : (if isSafeCertName name = true then
      Function.update s.files name fun pem => if left pem = true then s.files name pem else none else s.files) other pem = some text) :
      s.files other pem = some text := by
    split at there
    · by_cases here : other = name
      · rw [here, Function.update_self, Option.ite_none_right_eq_some] at there
        exact here ▸ there.2
      · rwa [Function.update_of_ne here] at there
    · exact there
  refine ⟨⟨fun _ impossible => (by cases impossible), fun other owns => ?_, fun other pem text there => sound.sourced other pem text (fewer _ _ _ there),
    ?_, sound.unique⟩, sound.comparing, sound.waiting, fun _ _ impossible => (by cases impossible), ?_⟩
  · have apart : other ≠ name := fun same => by
      rw [same, foreign] at owns
      cases owns
    dsimp only
    split
    · rw [Function.update_of_ne apart]
      exact sound.owned other owns
    · exact sound.owned other owns
  · rintro _ _ _ ⟨⟩
    obtain ⟨unkept, known⟩ := listed name List.mem_cons_self
    exact ⟨unkept, foreign, known⟩
  · rintro _ _ _ _ ⟨⟩ other member
    exact listed other (List.mem_cons_of_mem _ member)

theorem Sound.released (sound : Sound setup sent start s) (torn : Bool) : Sound setup sent start (s.released torn) := by
  refine sound.toGuarded.freed rfl ?_ (.inr (.inl rfl)) rfl sound.comparing sound.waiting
  cases torn with
  | false => exact List.Sublist.refl _
  | true => exact List.nil_sublist _

theorem Sound.alike {after : Receiver} (sound : Sound setup sent start s) (files : after.files = s.files)
    (records : after.store = s.store)
    (plain : after.outcome = .running ∨ after.outcome = .failed ∨ ∃ b, after.outcome = .unchanged b) :
    Guarded setup sent start after :=
  sound.toGuarded.same files (by rw [Receiver.records, records]; exact List.Sublist.refl _) plain

theorem Sound.push (sound : Sound setup sent start s) (pushed : sent b) : Sound setup sent start (s.step setup (.push b)) := by
  simp only [Receiver.step]
  split
  · exact ⟨sound.alike rfl rfl (.inr (.inl rfl)), sound.comparing, sound.waiting, sound.writes, sound.removes⟩
  · rename_i checked
    refine ⟨sound.alike rfl rfl (.inl rfl), fun c member => ?_, sound.waiting, sound.writes, sound.removes⟩
    rcases List.mem_cons.mp member with rfl | later
    · exact ⟨pushed, checked⟩
    · exact sound.comparing c later

theorem Sound.compare (sound : Sound setup sent start s) (fullchain : String) : Sound setup sent start (s.step setup (.compare b fullchain)) := by
  simp only [Receiver.step]
  split
  · rename_i member
    have compared (c : CertBundle × String) (there : c ∈ s.comparing.erase (b, fullchain)) := sound.comparing c (List.mem_of_mem_erase there)
    split
    · exact ⟨sound.alike rfl rfl (.inr (.inr ⟨b, rfl⟩)), compared, sound.waiting, sound.writes, sound.removes⟩
    · refine ⟨sound.alike rfl rfl (.inl rfl), compared, fun c there => ?_, sound.writes, sound.removes⟩
      rcases List.mem_cons.mp there with rfl | later
      · exact sound.comparing _ member
      · exact sound.waiting c later
  · exact sound

theorem Sound.enter (sound : Sound setup sent start s) : Sound setup sent start (s.step setup (.enter b)) := by
  simp only [Receiver.step]
  split
  · rename_i may
    obtain ⟨sent_, checked⟩ := sound.waiting b may.1
    refine ⟨sound.alike rfl rfl (.inl rfl), sound.comparing, fun c there => sound.waiting c (List.mem_of_mem_erase there), ?_,
      fun _ _ _ _ impossible => by cases impossible⟩
    rintro _ _ ⟨⟩
    exact ⟨sent_, checked, fun pem absent => absurd (by cases pem <;> decide) absent⟩
  · exact sound

theorem Sound.prune (sound : Sound setup sent start s) (owner : String) (keep : List String) :
    Sound setup sent start (s.step setup (.prune owner keep)) := by
  simp only [Receiver.step]
  split
  · split
    · exact ⟨sound.alike rfl rfl (.inl rfl), sound.comparing, sound.waiting, sound.writes, sound.removes⟩
    · refine ⟨sound.alike rfl rfl (.inl rfl), sound.comparing, sound.waiting, fun _ _ impossible => (by cases impossible), ?_⟩
      rintro _ _ _ _ ⟨⟩ name member
      obtain ⟨r, there, rfl⟩ := List.mem_map.mp member
      obtain ⟨among, chosen⟩ := List.mem_filter.mp there
      exact ⟨(of_decide_eq_true chosen).2, r, among, rfl, (of_decide_eq_true chosen).1⟩
  · exact sound

theorem Sound.removing (sound : Sound setup sent start s) (left : Pem → Bool) : Sound setup sent start (s.step setup (.remove left)) := by
  simp only [Receiver.step]
  split
  · rename_i held
    split
    · refine ⟨sound.alike rfl rfl (.inl rfl), sound.comparing, sound.waiting, fun _ _ impossible => (by cases impossible), ?_⟩
      rintro _ _ _ _ ⟨⟩ other member
      exact sound.removes _ _ _ _ held other (List.mem_cons_of_mem _ member)
    · rename_i foreign
      exact sound.remove held (Bool.of_not_eq_true foreign) left
  · exact sound

theorem Sound.step (sound : Sound setup sent start s) {step : ReceiverStep} (pushed : ∀ b, step = .push b → sent b) :
    Sound setup sent start (s.step setup step) := by
  cases step with
  | push b => exact sound.push (pushed b rfl)
  | compare b fullchain => exact sound.compare fullchain
  | enter b => exact sound.enter
  | write =>
    simp only [Receiver.step]
    split
    · rename_i held
      exact sound.write held
    · exact sound
  | record receivedAt =>
    simp only [Receiver.step]
    split
    · rename_i held
      exact sound.record held receivedAt
    · exact sound
  | prune owner keep => exact sound.prune owner keep
  | remove left => exact sound.removing left
  | forget =>
    simp only [Receiver.step]
    split
    · exact sound.toGuarded.freed rfl List.filter_sublist (.inl rfl) rfl sound.comparing sound.waiting
    · exact sound
  | fail torn =>
    simp only [Receiver.step]
    split
    · exact sound.released torn
    · exact sound
  | stop torn =>
    exact (sound.released torn).toGuarded.freed rfl (List.Sublist.refl _) (.inr (.inl rfl)) rfl (fun _ member => by cases member)
      fun _ member => by cases member

/-- Whatever is pushed, whatever fails, and wherever a call stops. -/
theorem replicas_guarded (setup : Setup) (files : String → Pem → Option String) (store : Option (List ReplicaRecord)) (steps : List ReceiverStep) :
    Guarded setup (fun b => .push b ∈ steps) (.begun files store) (steps.foldl (Receiver.step setup) (.begun files store)) := by
  suffices run : ∀ (rest : List ReceiverStep) (s : Receiver), rest ⊆ steps → Sound setup (fun b => .push b ∈ steps) (.begun files store) s →
      Sound setup (fun b => .push b ∈ steps) (.begun files store) (rest.foldl (Receiver.step setup) s) by
    have idle : Guarded setup (fun b => .push b ∈ steps) (.begun files store) (.begun files store) :=
      ⟨fun _ impossible => (by cases impossible), fun _ _ => rfl, fun _ _ _ there => .inl there, fun _ _ _ impossible => (by cases impossible), id⟩
    exact (run steps _ (List.Subset.refl _) (idle.free rfl (fun _ member => by cases member) fun _ member => by cases member)).toGuarded
  intro rest
  induction rest with
  | nil => exact fun _ _ sound => sound
  | cons step rest ih =>
    exact fun s within sound => ih _ (fun _ member => within (List.mem_cons_of_mem _ member))
      (sound.step fun b same => same ▸ within List.mem_cons_self)

end Receiver
end Certbot
