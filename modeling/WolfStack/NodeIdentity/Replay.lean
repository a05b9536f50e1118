import Mathlib.Data.List.Pairwise
import Mathlib.Order.Basic
import Mathlib.Algebra.Group.Nat.Defs

/-! Signed requests between nodes, after `node_identity.rs`, and what keeps one from
being accepted twice. A request reads the clock once for its timestamp and again
for its nonce; nonces are looked up one request at a time. -/

namespace NodeIdentity

def maxSkewSecs : Nat := 300

/-- `u64::from_str`. -/
def parseU64 (text : String) : Option Nat :=
  let digits := match text.toList with
    | '+' :: rest => rest
    | all => all
  if digits ≠ [] ∧ digits.all Char.isDigit then
    let value := digits.foldl (fun value digit => 10 * value + (digit.toNat - '0'.toNat)) 0
    if value < 2 ^ 64 then some value else none
  else none

/-- Base64 and Ed25519 come from libraries. -/
structure Crypto where
  decode : String → Option (List UInt8)
  verify : List UInt8 → String → List UInt8 → Bool

structure SignedParts where
  node : String
  ts : String
  nonce : String
  dest : String
  sig : String
deriving DecidableEq, Repr

inductive Verified where
  | node (id : String)
  | unsigned
  | bad (why : String)
deriving DecidableEq, Repr

def canonicalPrefix : String := "wolfstack-peer-v1"

def canonical (node : String) (ts : Nat) (nonce dest : String) : String :=
  s!"{canonicalPrefix}\n{node}\n{ts}\n{nonce}\n{dest}"

def absDiff (first second : Nat) : Nat := (first - second) + (second - first)

def verifyParts (crypto : Crypto) (ourId pubkey : String) (p : SignedParts) (nowSecs : Nat) : Except String Unit :=
  match parseU64 p.ts with
  | none => .error "timestamp is not a number"
  | some ts =>
    if absDiff ts nowSecs > maxSkewSecs then
      .error s!"timestamp skew {absDiff ts nowSecs}s exceeds {maxSkewSecs}s — check NTP on both nodes"
    else if p.dest ≠ ourId then
      .error (if p.dest = "" then "signature carries no destination (sender could not resolve this node's address)"
        else s!"signature is addressed to node {p.dest} — not this node")
    else match crypto.decode pubkey with
      | none => .error "pinned public key is not base64"
      | some pk => match crypto.decode p.sig with
        | none => .error "signature is not base64"
        | some sig =>
          if crypto.verify pk (canonical p.node ts p.nonce p.dest) sig then .ok ()
          else .error "signature does not verify against the pinned key"

/-- The remembered nonces, each until the second it expires. -/
abbrev SeenNonces := List (String × Nat)

def prune (seen : SeenNonces) (now : Nat) : SeenNonces :=
  if seen.length > 4096 then seen.filter (fun known => known.2 > now) else seen

/-- Unix seconds are an i64 in the system clock, so no expiry wraps around. -/
def nonceFresh (seen : SeenNonces) (nonce : String) (ts now : Nat) : SeenNonces × Bool :=
  let seen := prune seen now
  if (seen.lookup nonce).any (· > now) then (seen, false)
  else ((nonce, ts + maxSkewSecs) :: seen.filter (fun known => known.1 ≠ nonce), true)

/-- One request: its headers, what the receiver knows of the cluster at that time,
and the two readings of the clock. -/
structure Arrival where
  node : Option String
  ts : Option String
  nonce : Option String
  sig : Option String
  dest : Option String
  selfId : Option String
  pinnedPubkey : String → Option String
  verifiedAt : Nat
  lookedUpAt : Nat

def Arrival.parts (arrival : Arrival) : Option SignedParts :=
  match arrival.node, arrival.ts, arrival.nonce, arrival.sig with
  | some node, some ts, some nonce, some sig => some ⟨node, ts, nonce, arrival.dest.getD "", sig⟩
  | _, _, _, _ => none

def verifyRequestUncached (crypto : Crypto) (seen : SeenNonces) (arrival : Arrival) : SeenNonces × Verified :=
  match arrival.parts with
  | none => (seen, .unsigned)
  | some p => match arrival.selfId with
    | none => (seen, .bad "cluster state not initialised")
    | some selfId => match arrival.pinnedPubkey p.node with
      | none => (seen, .bad s!"no public key pinned for node {p.node}")
      | some pk => match verifyParts crypto selfId pk p arrival.verifiedAt with
        | .error e => (seen, .bad e)
        | .ok () => match nonceFresh seen p.nonce ((parseU64 p.ts).getD 0) arrival.lookedUpAt with
          | (seen, true) => (seen, .node p.node)
          | (seen, false) => (seen, .bad "replayed nonce")

/-- What becomes of the requests that reach a node, one nonce lookup after another. -/
def serve (crypto : Crypto) : SeenNonces → List Arrival → List (Arrival × Verified)
  | _, [] => []
  | seen, arrival :: rest =>
    let (after, verdict) := verifyRequestUncached crypto seen arrival
    (arrival, verdict) :: serve crypto after rest

def Accepts (result : Arrival × Verified) (p : SignedParts) : Prop :=
  result.1.parts = some p ∧ ∃ id, result.2 = .node id

/-- Whatever is checked before the nonce, with the clock kept apart: the tuple passes
at its own timestamp, and that is fresh when the request is verified. -/
def Arrival.Passes (crypto : Crypto) (arrival : Arrival) (p : SignedParts) : Prop :=
  (∃ selfId pk, arrival.selfId = some selfId ∧ arrival.pinnedPubkey p.node = some pk ∧
    verifyParts crypto selfId pk p ((parseU64 p.ts).getD 0) = .ok ()) ∧
  absDiff ((parseU64 p.ts).getD 0) arrival.verifiedAt ≤ maxSkewSecs

def Ordered (arrivals : List Arrival) : Prop :=
  arrivals.Pairwise fun first second => first.lookedUpAt ≤ second.lookedUpAt

def Remembers (seen : SeenNonces) (now : Nat) (nonce : String) (until_ : Nat) : Prop :=
  (∃ expiry, seen.lookup nonce = some expiry ∧ until_ ≤ expiry) ∨ until_ ≤ now

section
variable {crypto : Crypto} {seen : SeenNonces} {nonce : String} {now expiry until_ : Nat}

theorem lookup_alive (seen : SeenNonces) (found : seen.lookup nonce = some expiry) (alive : now < expiry) :
    (seen.filter (fun known => known.2 > now)).lookup nonce = some expiry := by
  induction seen with
  | nil => cases found
  | cons known rest ih =>
    obtain ⟨name, held⟩ := known
    rw [List.lookup_cons] at found
    rw [List.filter_cons]
    cases same : nonce == name with
    | true =>
      simp only [same, Option.some.injEq] at found
      subst held
      rw [if_pos (by simpa using alive), List.lookup_cons, same]
    | false =>
      simp only [same] at found
      split
      · rw [List.lookup_cons, same]
        exact ih found
      · exact ih found

theorem lookup_prune (seen : SeenNonces) (found : seen.lookup nonce = some expiry) (alive : now < expiry) :
    (prune seen now).lookup nonce = some expiry := by
  unfold prune
  split
  · exact lookup_alive seen found alive
  · exact found

theorem lookup_filter_other (seen : SeenNonces) {nonce other : String} (apart : other ≠ nonce) :
    (seen.filter (fun known => known.1 ≠ nonce)).lookup other = seen.lookup other := by
  induction seen with
  | nil => rfl
  | cons known rest ih =>
    obtain ⟨name, until_⟩ := known
    rw [List.filter_cons]
    by_cases same : name = nonce
    · subst name
      have miss : (other == nonce) = false := by simpa using apart
      rw [if_neg (by simp), ih, List.lookup_cons, miss]
    · rw [if_pos (by simpa using same), List.lookup_cons, List.lookup_cons, ih]

theorem Remembers.later {later : Nat} (remembers : Remembers seen now nonce until_) (passed : now ≤ later) :
    Remembers seen later nonce until_ :=
  remembers.imp_right fun come => Nat.le_trans come passed

theorem Remembers.nonceFresh (remembers : Remembers seen now nonce until_) (other : String) (ts : Nat) :
    Remembers (nonceFresh seen other ts now).1 now nonce until_ := by
  by_cases come : until_ ≤ now
  · exact .inr come
  obtain ⟨expiry, found, held⟩ := remembers.resolve_right come
  have alive : now < expiry := by omega
  have pruned := lookup_prune seen found alive
  simp only [NodeIdentity.nonceFresh]
  split
  · exact .inl ⟨expiry, pruned, held⟩
  · rename_i unseen
    have same : nonce ≠ other := by
      rintro rfl
      simp [pruned, alive] at unseen
    have miss : (nonce == other) = false := by simpa using same
    refine .inl ⟨expiry, ?_, held⟩
    rw [List.lookup_cons, miss]
    exact (lookup_filter_other _ same).trans pruned

theorem nonceFresh_remembers {ts : Nat} (fresh : (nonceFresh seen nonce ts now).2 = true) :
    Remembers (nonceFresh seen nonce ts now).1 now nonce (ts + maxSkewSecs) := by
  simp only [nonceFresh] at fresh ⊢
  split at fresh
  · cases fresh
  · rename_i unseen
    rw [if_neg unseen]
    exact .inl ⟨_, List.lookup_cons_self, Nat.le_refl _⟩

theorem Remembers.refuses (remembers : Remembers seen now nonce until_) (early : now < until_) (ts : Nat) :
    (NodeIdentity.nonceFresh seen nonce ts now).2 = false := by
  obtain ⟨expiry, found, held⟩ := remembers.resolve_right (by omega)
  have alive : now < expiry := by omega
  simp [NodeIdentity.nonceFresh, lookup_prune seen found alive, alive]

variable {arrival : Arrival}

theorem verifyRequestUncached_seen (crypto : Crypto) (seen : SeenNonces) (arrival : Arrival) :
    (verifyRequestUncached crypto seen arrival).1 = seen ∨
      ∃ p : SignedParts, (verifyRequestUncached crypto seen arrival).1 =
        (nonceFresh seen p.nonce ((parseU64 p.ts).getD 0) arrival.lookedUpAt).1 := by
  unfold verifyRequestUncached
  cases arrival.parts with
  | none => exact .inl rfl
  | some p =>
    simp only
    cases arrival.selfId with
    | none => exact .inl rfl
    | some selfId =>
      simp only
      cases arrival.pinnedPubkey p.node with
      | none => exact .inl rfl
      | some pk =>
        simp only
        cases verifyParts crypto selfId pk p arrival.verifiedAt with
        | error e => exact .inl rfl
        | ok =>
          refine .inr ⟨p, ?_⟩
          simp only
          split <;> rename_i looked <;> rw [looked]

theorem Remembers.request (remembers : Remembers seen now nonce until_) (passed : now ≤ arrival.lookedUpAt) :
    Remembers (verifyRequestUncached crypto seen arrival).1 arrival.lookedUpAt nonce until_ := by
  rcases verifyRequestUncached_seen crypto seen arrival with same | ⟨p, same⟩
  · rw [same]; exact remembers.later passed
  · rw [same]; exact (remembers.later passed).nonceFresh p.nonce _

theorem verifyParts_ok {selfId pk : String} {p : SignedParts} (passed : verifyParts crypto selfId pk p now = .ok ()) :
    absDiff ((parseU64 p.ts).getD 0) now ≤ maxSkewSecs ∧
      verifyParts crypto selfId pk p ((parseU64 p.ts).getD 0) = .ok () := by
  unfold verifyParts at passed ⊢
  cases read : parseU64 p.ts with
  | none => simp [read] at passed
  | some ts =>
    simp only [read, Option.getD_some] at passed ⊢
    split at passed
    · cases passed
    · rename_i near
      exact ⟨Nat.le_of_not_lt near, by rw [if_neg (by simp [absDiff])]; exact passed⟩

theorem verifyRequestUncached_accepts {p : SignedParts}
    (accepted : Accepts (arrival, (verifyRequestUncached crypto seen arrival).2) p) :
    arrival.Passes crypto p ∧
      (nonceFresh seen p.nonce ((parseU64 p.ts).getD 0) arrival.lookedUpAt).2 = true ∧
      (verifyRequestUncached crypto seen arrival).1 =
        (nonceFresh seen p.nonce ((parseU64 p.ts).getD 0) arrival.lookedUpAt).1 := by
  obtain ⟨signed, id, verdict⟩ := accepted
  change arrival.parts = some p at signed
  unfold verifyRequestUncached at verdict ⊢
  simp only [signed] at verdict ⊢
  cases known : arrival.selfId with
  | none => simp [known] at verdict
  | some selfId =>
    cases pinned : arrival.pinnedPubkey p.node with
    | none => simp [known, pinned] at verdict
    | some pk =>
      cases verified : verifyParts crypto selfId pk p arrival.verifiedAt with
      | error e => simp [known, pinned, verified] at verdict
      | ok =>
        have passes := verifyParts_ok verified
        refine ⟨⟨⟨selfId, pk, known, pinned, passes.2⟩, passes.1⟩, ?_⟩
        simp only [known, pinned, verified] at verdict ⊢
        split at verdict
        · rename_i after looked
          simp [looked]
        · cases verdict

theorem serve_refuses {p : SignedParts} {arrivals : List Arrival}
    (remembers : Remembers seen now p.nonce ((parseU64 p.ts).getD 0 + maxSkewSecs))
    (ordered : Ordered arrivals)
    (passed : ∀ arrival ∈ arrivals, now ≤ arrival.lookedUpAt)
    (early : ∀ arrival ∈ arrivals, arrival.parts = some p → arrival.Passes crypto p →
      arrival.lookedUpAt < (parseU64 p.ts).getD 0 + maxSkewSecs) :
    ∀ result ∈ serve crypto seen arrivals, ¬ Accepts result p := by
  induction arrivals generalizing seen now with
  | nil => simp [serve]
  | cons arrival rest ih =>
    have first := passed arrival List.mem_cons_self
    rw [Ordered, List.pairwise_cons] at ordered
    intro result member
    rcases List.mem_cons.mp member with rfl | member
    · intro accepted
      obtain ⟨passes, fresh, -⟩ := verifyRequestUncached_accepts accepted
      rw [(remembers.later first).refuses (early arrival List.mem_cons_self accepted.1 passes)] at fresh
      cases fresh
    · exact ih (remembers.request first) ordered.2 ordered.1
        (fun other later => early other (List.mem_cons_of_mem _ later)) result member

/-- No signed tuple is accepted twice, provided that none that passed before and passes
again, its timestamp still fresh, is looked up as late as the last second of that. -/
theorem no_replay {arrivals : List Arrival} (ordered : Ordered arrivals)
    (early : arrivals.Pairwise fun first second => ∀ p, first.parts = some p → second.parts = some p →
      first.Passes crypto p → second.Passes crypto p →
      second.lookedUpAt < (parseU64 p.ts).getD 0 + maxSkewSecs) (seen : SeenNonces) :
    (serve crypto seen arrivals).Pairwise fun first second => ∀ p, Accepts first p → ¬ Accepts second p := by
  induction arrivals generalizing seen with
  | nil => simp [serve]
  | cons arrival rest ih =>
    rw [Ordered, List.pairwise_cons] at ordered
    rw [List.pairwise_cons] at early
    refine List.pairwise_cons.mpr ⟨fun result member p accepted => ?_, ih ordered.2 early.2 _⟩
    obtain ⟨passes, fresh, after⟩ := verifyRequestUncached_accepts accepted
    have remembers := nonceFresh_remembers fresh
    rw [← after] at remembers
    exact serve_refuses remembers ordered.2 ordered.1
      (fun other later same => early.1 other later p accepted.1 same passes) result member

end

def sampleCrypto : Crypto where
  decode text := some text.toUTF8.toList
  verify key text sig := sig = key ++ text.toUTF8.toList

def sampleArrival (now : Nat) : Arrival where
  node := some "ws-a"
  ts := some "1000"
  nonce := some "n1"
  sig := some (String.ofList ('k' :: (canonical "ws-a" 1000 "n1" "ws-b").toList))
  dest := some "ws-b"
  selfId := some "ws-b"
  pinnedPubkey _ := some "k"
  verifiedAt := now
  lookedUpAt := now

/-- Twice while the timestamp is fresh, and once more when it no longer is. -/
theorem no_replay_sample :
    (serve sampleCrypto [] [sampleArrival 1000, sampleArrival 1299, sampleArrival 1400]).Pairwise fun first second =>
      ∀ p, Accepts first p → ¬ Accepts second p := by
  have stale (p : SignedParts) (signed : (sampleArrival 1400).parts = some p) :
      ¬ (sampleArrival 1400).Passes sampleCrypto p := by
    cases signed
    exact fun passes => absurd passes.2 (by decide)
  refine no_replay (by simp [Ordered, sampleArrival]) ?_ []
  simp only [List.pairwise_cons, List.mem_cons, List.not_mem_nil, or_false, forall_eq_or_imp, forall_eq,
    List.Pairwise.nil, and_true, false_imp_iff, implies_true]
  refine ⟨⟨?_, fun p _ late _ passes => (stale p late passes).elim⟩,
    fun p _ late _ passes => (stale p late passes).elim⟩
  rintro p signed - - -
  cases signed
  decide

/-- A second request with the same headers, as late as its timestamp allows. -/
theorem replay_in_the_last_second :
    let arrivals := [sampleArrival 1000, sampleArrival 1300]
    Ordered arrivals ∧
      ¬ (serve sampleCrypto [] arrivals).Pairwise fun first second => ∀ p, Accepts first p → ¬ Accepts second p := by
  refine ⟨by simp [Ordered, sampleArrival], fun once => ?_⟩
  have first : (verifyRequestUncached sampleCrypto [] (sampleArrival 1000)).2 = .node "ws-a" := by decide +kernel
  have second : (verifyRequestUncached sampleCrypto (verifyRequestUncached sampleCrypto [] (sampleArrival 1000)).1
      (sampleArrival 1300)).2 = .node "ws-a" := by decide +kernel
  simp only [serve, List.pairwise_pair] at once
  exact once _ ⟨rfl, _, first⟩ ⟨rfl, _, second⟩

end NodeIdentity
