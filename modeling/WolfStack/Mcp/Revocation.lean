import WolfStack.Mcp.Runs

/-! Is a revocation final? Tokens of a grant that was revoked are dead for good. Approvals
are not, where they are a code or are being exchanged when the user's grants are revoked. -/

namespace Mcp
open Effects
open Std (TreeMap)

/-- No token of a revoked grant is accepted afterwards, and what the revocation covers comes
back only on an approval given after it. -/
structure Final (log : List Event) : Prop where
  tokens : ∀ later scope earlier, log = later ++ .revoked scope :: earlier → ∀ g approval, .created g approval ∈ earlier →
    scope.covers g = true → .used g.id ∉ later
  approvals : ∀ later scope earlier, log = later ++ .revoked scope :: earlier → (∀ id, scope ≠ .grant id) → ∀ g approval,
    .created g approval ∈ later → scope.covers g = true → earlier.length < approval

variable {settle detect : Prop} {later earlier : List Event} {event : Event} {prim : Primitives} {s : Server}

theorem Lawful.at_ (lawful : Lawful settle detect (later ++ event :: earlier)) : Allowed settle detect earlier event := by
  induction later with
  | nil => exact lawful.1
  | cons first rest ih => exact ih lawful.2

theorem Closed.since {id : String} (closes_ : closes detect earlier id event) : Closed detect (later ++ event :: earlier) id := by
  induction later with
  | nil => exact .inl closes_
  | cons first rest ih => exact .inr ih

theorem Approved.since {scope : Scope} {username : String} {approval : Nat}
    (approved : Approved (later ++ .revoked scope :: earlier) username approval) (bars : scope.bars username = true) :
    earlier.length < approval := by
  induction later with
  | nil => exact approved.1 bars
  | cons first rest ih =>
    cases first with
    | revoked other => exact ih approved.2
    | _ => exact ih approved

theorem Lawful.tokens {log : List Event} (lawful : Lawful settle detect log) {scope : Scope} (split : log = later ++ .revoked scope :: earlier)
    {g : Grant} {approval : Nat} (created : .created g approval ∈ earlier) (covers : scope.covers g = true) : .used g.id ∉ later := by
  intro used
  obtain ⟨last, middle, rfl⟩ := List.append_of_mem used
  subst split
  rw [List.append_assoc, List.cons_append] at lawful
  exact lawful.at_ (.since ⟨g, approval, created, covers, rfl⟩)

theorem Lawful.final {log : List Event} (lawful : Lawful True detect log) : Final log := by
  refine ⟨fun later scope earlier split g approval created covers => lawful.tokens split created covers, ?_⟩
  intro later scope earlier split whole g approval created covers
  obtain ⟨last, middle, rfl⟩ := List.append_of_mem created
  subst split
  rw [List.append_assoc, List.cons_append] at lawful
  obtain ⟨-, registered, approved⟩ := lawful.at_
  cases scope with
  | grant id => exact absurd rfl (whole id)
  | client clientId =>
    have mine : g.clientId = clientId := by simpa [Scope.covers] using covers
    rw [mine] at registered
    exact absurd (List.mem_append_right _ List.mem_cons_self) registered
  | user username => exact Approved.since (approved trivial) (by simpa [Scope.covers, Scope.bars, eq_comm] using covers)
  | all => exact Approved.since (approved trivial) rfl

/-- Tokens need no condition, unlike approvals that are under way. -/
theorem revoked_tokens_stay_dead (reached : (serverSystem prim fun _ _ _ _ => True).Reaches Server.New s) {scope : Scope}
    (split : s.log = later ++ .revoked scope :: earlier) {g : Grant} {approval : Nat} (created : .created g approval ∈ earlier)
    (covers : scope.covers g = true) : .used g.id ∉ later := by
  have lawful : Lawful False False s.log :=
    Server.lawful_run (fun _ _ _ _ _ => ⟨fun impossible => impossible.elim, fun impossible => impossible.elim⟩) reached
  exact lawful.tokens split created covers

/-- A run in which users are cut off while none of their approvals is under way. -/
def unclaimed : Policy := fun s _ _ operation => s.Unclaimed operation

theorem revocation_is_final (reached : (serverSystem prim unclaimed).Reaches Server.New s) : Final s.log := by
  have lawful : Lawful True False s.log :=
    Server.lawful_run (fun _ _ _ _ may => ⟨fun _ => may, fun impossible => impossible.elim⟩) reached
  exact lawful.final

def samplePrimitives : Primitives where
  secretHash kind secret := kind ++ "/" ++ secret
  challenge verifier := verifier
  parseUrl _ := .ok ⟨"https", "", none, some "app.example.com", none⟩

def sampleVerifier : String := "aaaaaaaaaaaaaaaaaaaaaaaaaaaaaaaaaaaaaaaaaaa"

/-- The tokens drawn with the request of a number; writes succeed and accounts are found. -/
def chanceAt (index : Nat) : Chance where
  randomToken text := text ++ toString index
  written := .ok ()
  authority _ _ := some ⟨allScopes, "fp1"⟩

def Server.serve (allowed : Server → Chance → {β : Type} → Section β → Bool) (call : CallId) (index : Nat) {β : Type} (s : Server)
    (operation : Section β) : Option (Server × β) :=
  let chance := chanceAt index
  if s.boot = call.1 ∧ (∀ name ∈ chance.names samplePrimitives, name ∉ s.named) ∧ allowed s chance operation = true then
    some (s.perform samplePrimitives call chance operation).swap
  else none

theorem serve_commits {allowed : Server → Chance → {β : Type} → Section β → Bool} {permitted : Policy}
    (checked : ∀ s chance {β : Type} (operation : Section β), allowed s chance operation = true → permitted s chance operation)
    (call : CallId) (index : Nat) {β : Type} (s : Server) (operation : Section β) (after : Server) (value : β)
    (served : Server.serve allowed call index s operation = some (after, value)) :
    (serverSystem samplePrimitives permitted).commits call s operation value after := by
  simp only [Server.serve] at served
  split at served
  · rename_i may
    obtain ⟨current, fresh, allowed⟩ := may
    refine ⟨current, chanceAt index, fresh, checked s _ operation allowed, ?_⟩
    exact (Prod.swap_eq_iff_eq_swap.mp (Option.some.inj served)).symm
  · cases served

def newServer : Server where
  store := OAuthStore.load ⟨[], []⟩
  clock := 0
  started := 0
  boot := 0
  log := []
  named := []
  owners _ := none
  approvals _ := 0
  carried := []

theorem newServer_new : newServer.New := ⟨rfl, Int.le_refl _, rfl, fun _ => rfl, rfl⟩

abbrev ServerTurn := Turn Server Section CallId Unit

def asked {β : Type} (operation : Section β) : List ServerTurn := Turn.whole (0, 0) (.request operation fun _ => .pure ()) 1

def registers : List ServerTurn :=
  Turn.whole (0, 0) ((registerClient samplePrimitives (some "Agent") ["https://app.example.com/cb"] "198.51.100.1").bind fun _ => .pure ()) 2

def consents (clientId : String) : List ServerTurn := asked (.beginPending
  ⟨clientId, "Agent", "https://app.example.com/cb", none, sampleVerifier, ["read"], "https://ws.example.com/mcp", 0, "198.51.100.1"⟩)

def approves (pendingId : String) : List ServerTurn :=
  Turn.whole (0, 0) ((approve pendingId "paul" .wolfStack ["read"]).bind fun _ => .pure ()) 3

def exchanges (code clientId : String) : List ServerTurn :=
  Turn.whole (0, 0) ((exchangeCode code clientId "https://app.example.com/cb" sampleVerifier none).bind fun _ => .pure ()) 4

/-- Tokens are named by the request in which they are drawn: the user is cut off while the
code of the sixth is out. -/
def codeOutlives : List ServerTurn :=
  registers ++ consents "wsc_1" ++ approves "wsp_2" ++ asked (.revokeUser "paul") ++ exchanges "wsa_5" "wsc_1"

def approvedAgain : List ServerTurn :=
  registers ++ consents "wsc_1" ++ approves "wsp_2" ++ exchanges "wsa_5" "wsc_1" ++ asked (.revokeUser "paul") ++
    consents "wsc_1" ++ approves "wsp_11" ++ exchanges "wsa_14" "wsc_1"

variable {permitted : Policy}

theorem codeOutlives_lawful : ∀ turn ∈ codeOutlives, turn.Lawful (serverSystem samplePrimitives permitted) := by
  have revokes : Call samplePrimitives (.request (Section.revokeUser "paul") fun _ => .pure ()) := .single trivial
  have begun : ∀ p, Call samplePrimitives (.request (Section.beginPending p) fun _ => .pure ()) := fun p => .single trivial
  simp [codeOutlives, registers, consents, approves, exchanges, asked, Turn.whole, Turn.Lawful, serverSystem, revokes, begun, Call.register,
    Call.approve, Call.exchange]

theorem approvedAgain_lawful : ∀ turn ∈ approvedAgain, turn.Lawful (serverSystem samplePrimitives permitted) := by
  have revokes : Call samplePrimitives (.request (Section.revokeUser "paul") fun _ => .pure ()) := .single trivial
  have begun : ∀ p, Call samplePrimitives (.request (Section.beginPending p) fun _ => .pure ()) := fun p => .single trivial
  simp [approvedAgain, registers, consents, approves, exchanges, asked, Turn.whole, Turn.Lawful, serverSystem, revokes, begun, Call.register,
    Call.approve, Call.exchange]

def unclaimedNow (s : Server) : {β : Type} → Section β → Bool
  | _, .revokeUser username => (values s.store.inner.codes).all (fun c => c.username ≠ username) && s.carried.all fun entry => entry.username ≠ username
  | _, .revokeAll => (values s.store.inner.codes).isEmpty && s.carried.isEmpty
  | _, _ => true

theorem unclaimedNow_checked (s : Server) (chance : Chance) {β : Type} (operation : Section β) (may : unclaimedNow s operation = true) :
    unclaimed s chance operation := by
  unfold unclaimed
  cases operation with
  | revokeUser username => simpa [unclaimedNow, Server.Unclaimed] using may
  | revokeAll => simpa [unclaimedNow, Server.Unclaimed] using may
  | _ => trivial

def renewed (log : List Event) : Bool :=
  match log with
  | .created g _ :: earlier => earlier.any fun event => event = .revoked (.user g.username)
  | _ => false

theorem revocation_is_final_sample : ∃ s : Server, (serverSystem samplePrimitives unclaimed).Reaches Server.New s ∧
    renewed s.log = true ∧ Final s.log := by
  obtain ⟨s, reached, passed⟩ := @conduct_reaches _ _ _ _ _ (serverSystem samplePrimitives unclaimed)
    (Server.serve fun s _ _ operation => unclaimedNow s operation) Server.New newServer newServer_new (serve_commits unclaimedNow_checked)
    approvedAgain approvedAgain_lawful (fun s => renewed s.log) (by decide +kernel)
  exact ⟨s, reached, passed, revocation_is_final reached⟩

/-- A grant, revoked right after it came into being. -/
def cutOff : List Event → Option (Scope × Grant × Nat × List Event)
  | .revoked scope :: .created g approval :: earlier => if scope.covers g = true then some (scope, g, approval, earlier) else none
  | _ => none

theorem cutOff_eq {log : List Event} (cut : (cutOff log).isSome) : ∃ scope g approval earlier,
    log = .revoked scope :: .created g approval :: earlier ∧ scope.covers g = true := by
  obtain ⟨⟨scope, g, approval, earlier⟩, found⟩ := Option.isSome_iff_exists.mp cut
  unfold cutOff at found
  split at found
  · split at found
    · rename_i covers
      cases found
      exact ⟨_, _, _, _, rfl, covers⟩
    · cases found
  · cases found

theorem revoked_tokens_stay_dead_sample : ∃ s later scope g approval earlier, (serverSystem samplePrimitives fun _ _ _ _ => True).Reaches
    Server.New s ∧ s.log = later ++ .revoked scope :: .created g approval :: earlier ∧ later ≠ [] ∧ .used g.id ∉ later := by
  obtain ⟨s, reached, passed⟩ := @conduct_reaches _ _ _ _ _ (serverSystem samplePrimitives fun _ _ _ _ => True)
    (Server.serve fun _ _ _ _ => true) Server.New newServer newServer_new (serve_commits fun _ _ _ _ _ => trivial)
    approvedAgain approvedAgain_lawful (fun s => s.log.tails.any fun tail => (cutOff tail).isSome && decide (tail ≠ s.log)) (by decide +kernel)
  simp only [List.any_eq_true, List.mem_tails, Bool.and_eq_true, decide_eq_true_eq] at passed
  obtain ⟨tail, ⟨later, split⟩, cut, further⟩ := passed
  obtain ⟨scope, g, approval, earlier, rfl, covers⟩ := cutOff_eq cut
  refine ⟨s, later, scope, g, approval, earlier, reached, split.symm, ?_,
    revoked_tokens_stay_dead reached split.symm List.mem_cons_self covers⟩
  rintro rfl
  exact further split

def outlived (log : List Event) : Bool :=
  match log with
  | .created g approval :: .revoked (.user username) :: earlier => g.username = username && approval ≤ earlier.length
  | _ => false

theorem outlived_open {log : List Event} (early : outlived log = true) : ¬Final log := by
  unfold outlived at early
  split at early
  · rename_i g approval username earlier
    simp only [Bool.and_eq_true, decide_eq_true_eq] at early
    intro final
    have late := final.approvals [.created g approval] (.user username) earlier rfl (fun _ same => by cases same) g approval
      List.mem_cons_self (by simp [Scope.covers, early.1])
    exact absurd early.2 (Nat.not_le.mpr late)
  · cases early

theorem code_outlives_revocation : ¬∀ s : Server, (serverSystem samplePrimitives fun _ _ _ _ => True).Reaches Server.New s → Final s.log := by
  intro final
  obtain ⟨s, reached, passed⟩ := @conduct_reaches _ _ _ _ _ (serverSystem samplePrimitives fun _ _ _ _ => True)
    (Server.serve fun _ _ _ _ => true) Server.New newServer newServer_new (serve_commits fun _ _ _ _ _ => trivial)
    codeOutlives codeOutlives_lawful (fun s => outlived s.log) (by decide +kernel)
  exact outlived_open passed (final s reached)

end Mcp
