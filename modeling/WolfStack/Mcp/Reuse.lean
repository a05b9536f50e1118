import WolfStack.Mcp.Revocation

/-! Is the reuse of a refresh token caught? A grant remembers its last twenty retired tokens,
and takes the last of them alone for one that is being retried. -/

namespace Mcp
open Effects

/-- A token that was retired ends its grant when it comes back, and within the grace period
of its own rotation does not. -/
structure Detects (log : List Event) : Prop where
  theft : ∀ later h t earlier, log = later ++ .presented h t :: earlier → ∀ id r, .rotated id h r ∈ earlier →
    refreshRetryGraceSecs < t - r → .used id ∉ later
  retry : ∀ later id h t earlier, log = later ++ .caught id h t :: earlier → ∀ r, .rotated id h r ∈ earlier →
    refreshRetryGraceSecs < t - r

variable {settle : Prop} {prim : Primitives} {s : Server}

theorem Lawful.detects {log : List Event} (lawful : Lawful settle True log) : Detects log := by
  constructor
  · intro later h t earlier split id r rotated late used
    obtain ⟨last, middle, rfl⟩ := List.append_of_mem used
    subst split
    rw [List.append_assoc, List.cons_append] at lawful
    exact lawful.at_ (.since ⟨trivial, r, rotated, late⟩)
  · intro later id h t earlier split r rotated
    subst split
    exact lawful.at_ trivial r rotated

/-- A run in which grants remember the tokens that come back, and none is rotated twice while
a token is retried. -/
def remembered (prim : Primitives) : Policy := fun s chance _ operation => s.Remembered prim chance operation

theorem reuse_is_caught (reached : (serverSystem prim (remembered prim)).Reaches Server.New s) : Detects s.log := by
  have lawful : Lawful False True s.log :=
    Server.lawful_run (fun _ _ _ _ may => ⟨fun impossible => impossible.elim, fun _ => may⟩) reached
  exact lawful.detects

def refreshes (refreshToken : String) : List ServerTurn :=
  Turn.whole (0, 0) ((refresh refreshToken "wsc_1" none none).bind fun _ => .pure ()) 4

def validates (token : String) : List ServerTurn :=
  Turn.whole (0, 0) ((validateAccess token "https://ws.example.com/mcp").bind fun _ => .pure ()) 2

def waits (seconds : Nat) : List ServerTurn := [.move fun s => some { s with clock := s.clock + seconds }]

def granting : List ServerTurn := registers ++ consents "wsc_1" ++ approves "wsp_2" ++ exchanges "wsa_5" "wsc_1"

def retriedThenStolen : List ServerTurn :=
  granting ++ refreshes "wsrt_9" ++ refreshes "wsrt_9" ++ validates "wsat_17" ++ waits 11 ++ refreshes "wsrt_9"

def retriedTwice : List ServerTurn := granting ++ refreshes "wsrt_9" ++ refreshes "wsrt_9" ++ refreshes "wsrt_9"

variable {permitted : Policy}

theorem granting_lawful : ∀ turn ∈ granting, turn.Lawful (serverSystem samplePrimitives permitted) := by
  have begun : ∀ p, Call samplePrimitives (.request (Section.beginPending p) fun _ => .pure ()) := fun p => .single trivial
  simp [granting, registers, consents, approves, exchanges, asked, Turn.whole, Turn.Lawful, serverSystem, begun, Call.register, Call.approve,
    Call.exchange]

theorem refreshes_lawful (token : String) : ∀ turn ∈ refreshes token, turn.Lawful (serverSystem samplePrimitives permitted) := by
  simp [refreshes, Turn.whole, Turn.Lawful, serverSystem, Call.refresh]

theorem retriedThenStolen_lawful : ∀ turn ∈ retriedThenStolen, turn.Lawful (serverSystem samplePrimitives permitted) := by
  have validated : ∀ turn ∈ validates "wsat_17", turn.Lawful (serverSystem samplePrimitives permitted) := by
    simp [validates, Turn.whole, Turn.Lawful, serverSystem, Call.validate]
  have waited : ∀ turn ∈ waits 11, turn.Lawful (serverSystem samplePrimitives permitted) := by
    intro turn member
    rw [waits, List.mem_singleton] at member
    subst member
    rintro before after ⟨⟩
    exact .inl ⟨_, Int.le_add_of_nonneg_right (Int.natCast_nonneg 11), rfl⟩
  intro turn member
  simp only [retriedThenStolen, List.mem_append] at member
  rcases member with ((((first | again) | again) | used) | later) | again
  · exact granting_lawful turn first
  · exact refreshes_lawful _ turn again
  · exact refreshes_lawful _ turn again
  · exact validated turn used
  · exact waited turn later
  · exact refreshes_lawful _ turn again

theorem retriedTwice_lawful : ∀ turn ∈ retriedTwice, turn.Lawful (serverSystem samplePrimitives permitted) := by
  intro turn member
  simp only [retriedTwice, List.mem_append] at member
  rcases member with ((first | again) | again) | again
  · exact granting_lawful turn first
  · exact refreshes_lawful _ turn again
  · exact refreshes_lawful _ turn again
  · exact refreshes_lawful _ turn again

def rotations (log : List Event) : List (String × String × Int) :=
  log.filterMap fun event => match event with
    | .rotated id h r => some (id, h, r)
    | _ => none

theorem mem_rotations {log : List Event} {id h : String} {r : Int} : (id, h, r) ∈ rotations log ↔ .rotated id h r ∈ log := by
  rw [rotations, List.mem_filterMap]
  constructor
  · rintro ⟨event, member, found⟩
    cases event with
    | rotated => cases found; exact member
    | _ => cases found
  · exact fun member => ⟨_, member, rfl⟩

def rememberedNow (prim : Primitives) (s : Server) (chance : Chance) : {β : Type} → Section β → Bool
  | _, .findGrant refreshToken _ _ t => (rotations s.log).all fun rotation =>
    rotation.2.1 ≠ prim.secretHash "refresh" refreshToken || (s.store.inner.prune t).grants[rotation.1]?.all fun g =>
      if t - rotation.2.2 ≤ refreshRetryGraceSecs then g.retiredRefreshHashes.getLast? = some rotation.2.1
      else g.retiredRefreshHashes.contains rotation.2.1 && chance.written.isOk
  | _, _ => true

theorem rememberedNow_checked (prim : Primitives) (s : Server) (chance : Chance) {β : Type} (operation : Section β)
    (may : rememberedNow prim s chance operation = true) : remembered prim s chance operation := by
  cases operation with
  | findGrant refreshToken clientId resource t =>
    intro id r rotated g found
    have checked := List.all_eq_true.mp may (id, prim.secretHash "refresh" refreshToken, r) (mem_rotations.mpr rotated)
    simp only [found, Option.all_some, ne_eq, not_true_eq_false, decide_false, Bool.false_or] at checked
    split at checked
    · rename_i soon
      rw [if_pos soon]
      simpa using checked
    · rename_i late
      rw [if_neg late]
      simpa using checked
  | _ => trivial

def caughtLate (log : List Event) : Bool :=
  match log with
  | .caught id h t :: earlier => earlier.contains (.used id) && (rotations earlier).any fun rotation =>
    rotation.1 = id && rotation.2.1 = h && refreshRetryGraceSecs < t - rotation.2.2
  | _ => false

theorem reuse_is_caught_sample : ∃ s : Server, (serverSystem samplePrimitives (remembered samplePrimitives)).Reaches Server.New s ∧
    caughtLate s.log = true ∧ Detects s.log := by
  obtain ⟨s, reached, passed⟩ := @conduct_reaches _ _ _ _ _ (serverSystem samplePrimitives (remembered samplePrimitives))
    (Server.serve fun s chance _ operation => rememberedNow samplePrimitives s chance operation) Server.New newServer newServer_new
    (serve_commits (rememberedNow_checked samplePrimitives)) retriedThenStolen retriedThenStolen_lawful (fun s => caughtLate s.log)
    (by decide +kernel)
  exact ⟨s, reached, passed, reuse_is_caught reached⟩

def caughtEarly (log : List Event) : Bool :=
  match log with
  | .caught id h t :: earlier => (rotations earlier).any fun rotation =>
    rotation.1 = id && rotation.2.1 = h && t - rotation.2.2 ≤ refreshRetryGraceSecs
  | _ => false

theorem caughtEarly_wrong {log : List Event} (early : caughtEarly log = true) : ¬Detects log := by
  unfold caughtEarly at early
  split at early
  · rename_i id h t earlier
    obtain ⟨⟨other, hash, r⟩, member, same⟩ := List.any_eq_true.mp early
    simp only [Bool.and_eq_true, decide_eq_true_eq] at same
    obtain ⟨⟨rfl, rfl⟩, soon⟩ := same
    intro detects
    have late := detects.retry [] other hash t earlier rfl r (mem_rotations.mp member)
    omega
  · cases early

theorem retries_lose_the_grant : ¬∀ s : Server, (serverSystem samplePrimitives fun _ _ _ _ => True).Reaches Server.New s → Detects s.log := by
  intro detects
  obtain ⟨s, reached, passed⟩ := @conduct_reaches _ _ _ _ _ (serverSystem samplePrimitives fun _ _ _ _ => True)
    (Server.serve fun _ _ _ _ => true) Server.New newServer newServer_new (serve_commits fun _ _ _ _ _ => trivial)
    retriedTwice retriedTwice_lawful (fun s => caughtEarly s.log) (by decide +kernel)
  exact caughtEarly_wrong passed (detects s reached)

end Mcp
