import Mathlib.Data.List.Basic
import WolfStack.Auth.LoginLimiter

/-! Two properties of the limiter over whole runs: enough failures lock an address out
each time, and no kernel block is left without a record or an entry that lifts it. -/

namespace Auth
namespace Limiter

variable {limiter : Limiter} {moment : Moment} {ip : String}

theorem record_put (limiter : Limiter) (ip : String) (rec : AttemptRecord) : (limiter.put ip rec).record ip = some rec := by
  rw [record, put, List.lookup_cons_self]

theorem kernelBlockIp_record (limiter : Limiter) (moment : Moment) (ip : String) :
    (limiter.kernelBlockIp moment ip).attempts = limiter.attempts ∧
      (limiter.kernelBlockIp moment ip).config = limiter.config := by
  rw [kernelBlockIp]
  split
  · split
    · exact ⟨rfl, rfl⟩
    · exact ⟨rfl, rfl⟩
  · exact ⟨rfl, rfl⟩

theorem persistLockouts_record (limiter : Limiter) (moment : Moment) :
    (limiter.persistLockouts moment).attempts = limiter.attempts ∧
      (limiter.persistLockouts moment).config = limiter.config := by
  rw [persistLockouts]
  split
  · exact ⟨rfl, rfl⟩
  · exact ⟨rfl, rfl⟩
  · exact ⟨rfl, rfl⟩

theorem lockOut_record (limiter : Limiter) (moment : Moment) (ip : String) (rec : AttemptRecord) :
    (limiter.lockOut moment ip rec).record ip = some rec ∧ (limiter.lockOut moment ip rec).config = limiter.config := by
  rw [lockOut, record, (persistLockouts_record _ moment).1, (persistLockouts_record _ moment).2,
    (kernelBlockIp_record _ moment ip).1, (kernelBlockIp_record _ moment ip).2]
  exact ⟨record_put limiter ip rec, rfl⟩

theorem kernelUnblockIp_record (limiter : Limiter) (moment : Moment) (ip : String) :
    (limiter.kernelUnblockIp moment ip).attempts = limiter.attempts ∧
      (limiter.kernelUnblockIp moment ip).config = limiter.config := by
  rw [kernelUnblockIp]
  split
  · split
    · exact ⟨rfl, rfl⟩
    · exact ⟨rfl, rfl⟩
  · exact ⟨rfl, rfl⟩

theorem unblockAll_record (limiter : Limiter) (moment : Moment) (ips : List String) :
    (limiter.unblockAll moment ips).attempts = limiter.attempts ∧ (limiter.unblockAll moment ips).config = limiter.config := by
  induction ips generalizing limiter with
  | nil => exact ⟨rfl, rfl⟩
  | cons ip rest ih =>
    obtain ⟨attempts, config⟩ := ih (limiter.kernelUnblockIp moment ip)
    obtain ⟨same, still⟩ := kernelUnblockIp_record limiter moment ip
    exact ⟨attempts.trans same, config.trans still⟩

def lock (limiter : Limiter) (ip : String) : Option Nat := ((limiter.record ip).getD .default).lockedUntil

inductive Outcome (limiter : Limiter) (moment : Moment) : Call → Limiter → Prop where
  | idle {call} : Outcome limiter moment call limiter
  | noted {call} (ip : String) (rec : AttemptRecord) (untrusted : limiter.config.isTrusted ip = false)
      (lock : rec.lockedUntil = limiter.lock ip) : Outcome limiter moment call (limiter.put ip rec)
  | locked {call} (ip : String) (rec : AttemptRecord) (untrusted : limiter.config.isTrusted ip = false)
      (lock : rec.lockedUntil ≠ none) : Outcome limiter moment call (limiter.lockOut moment ip rec)
  | cleared (ip : String) : Outcome limiter moment (.clearWith ip) (limiter.clearWith ip)
  | unblocked (ip : String) : Outcome limiter moment (.unblockLocal ip) (limiter.unblockLocal moment ip)
  | cleaned : Outcome limiter moment .cleanup (limiter.cleanup moment)
  | stopped : Outcome limiter moment .stop { limiter with running := false, attempts := [] }

theorem serve_some {result : Option Limiter} {after : Limiter} :
    limiter.serve result = some after ↔ limiter.running = true ∧ result = some after := by
  rw [serve]
  split
  · simp [*]
  · simp [*]

theorem recordFailureWith_cases {username : String} {after : Limiter} {locked : Bool}
    (called : limiter.recordFailureWith moment ip username = some (after, locked)) :
    Outcome limiter moment (.recordFailureWith ip username) after := by
  rw [recordFailureWith] at called
  cases trusted : limiter.config.isTrusted ip with
  | true =>
    simp only [trusted, if_true, Option.some.injEq, Prod.mk.injEq] at called
    exact called.1 ▸ .idle
  | false =>
    simp only [trusted, Bool.false_eq_true, if_false] at called
    split at called
    · simp only [Option.some.injEq, Prod.mk.injEq] at called
      exact called.1 ▸ .idle
    · split at called
      · obtain ⟨until_, -, result⟩ := Option.map_eq_some_iff.mp called
        simp only [Prod.mk.injEq] at result
        exact result.1 ▸ .locked ip _ trusted nofun
      · simp only [Option.some.injEq, Prod.mk.injEq] at called
        exact called.1 ▸ .noted ip _ trusted rfl

theorem forceLockout_cases {source : String} {after : Limiter} {locked : Bool}
    (called : limiter.forceLockout moment ip source = some (after, locked)) :
    Outcome limiter moment (.forceLockout ip source) after := by
  rw [forceLockout] at called
  cases trusted : limiter.config.isTrusted ip with
  | true =>
    simp only [trusted, if_true, Option.some.injEq, Prod.mk.injEq] at called
    exact called.1 ▸ .idle
  | false =>
    simp only [trusted, Bool.false_eq_true, if_false] at called
    split at called
    · simp only [Option.some.injEq, Prod.mk.injEq] at called
      exact called.1 ▸ .idle
    · split at called
      · simp only [Option.some.injEq, Prod.mk.injEq] at called
        exact called.1 ▸ .idle
      · obtain ⟨until_, -, result⟩ := Option.map_eq_some_iff.mp called
        simp only [Prod.mk.injEq] at result
        exact result.1 ▸ .locked ip _ trusted nofun

theorem addPropagatedLockout_cases {lockoutSeconds : Nat} {after : Limiter}
    (called : limiter.addPropagatedLockout moment ip lockoutSeconds = some after) :
    Outcome limiter moment (.addPropagatedLockout ip lockoutSeconds) after := by
  rw [addPropagatedLockout] at called
  cases trusted : limiter.config.isTrusted ip with
  | true =>
    simp only [trusted, if_true, Option.some.injEq] at called
    exact called ▸ .idle
  | false =>
    simp only [trusted, Bool.false_eq_true, if_false] at called
    obtain ⟨until_, -, result⟩ := Option.map_eq_some_iff.mp called
    exact result ▸ .locked ip _ trusted nofun

theorem step_cases {call : Call} {after : Limiter} (stepped : limiter.step moment call = some after) :
    (limiter.running = true ∧ Outcome limiter moment call after) ∨
      (call = .start ∧ limiter.running = false ∧
        ({ limiter with running := true } : Limiter).restorePersistedLockouts moment = some after) := by
  cases call with
  | start =>
    rw [step] at stepped
    split at stepped
    · cases stepped
    · exact .inr ⟨rfl, by simpa using ‹¬limiter.running = true›, stepped⟩
  | recordFailureWith ip username =>
    obtain ⟨running, found⟩ := serve_some.mp stepped
    obtain ⟨⟨after, locked⟩, called, rfl⟩ := Option.map_eq_some_iff.mp found
    exact .inl ⟨running, recordFailureWith_cases called⟩
  | forceLockout ip source =>
    obtain ⟨running, found⟩ := serve_some.mp stepped
    obtain ⟨⟨after, locked⟩, called, rfl⟩ := Option.map_eq_some_iff.mp found
    exact .inl ⟨running, forceLockout_cases called⟩
  | addPropagatedLockout ip lockoutSeconds =>
    obtain ⟨running, called⟩ := serve_some.mp stepped
    exact .inl ⟨running, addPropagatedLockout_cases called⟩
  | clearWith ip =>
    obtain ⟨running, called⟩ := serve_some.mp stepped
    cases called
    exact .inl ⟨running, .cleared ip⟩
  | unblockLocal ip =>
    obtain ⟨running, called⟩ := serve_some.mp stepped
    cases called
    exact .inl ⟨running, .unblocked ip⟩
  | cleanup =>
    obtain ⟨running, called⟩ := serve_some.mp stepped
    cases called
    exact .inl ⟨running, .cleaned⟩
  | stop =>
    obtain ⟨running, called⟩ := serve_some.mp stepped
    cases called
    exact .inl ⟨running, .stopped⟩

theorem enforce_record (limiter : Limiter) (moment : Moment) (ip : String) :
    (limiter.enforce moment ip).attempts = limiter.attempts ∧ (limiter.enforce moment ip).config = limiter.config := by
  rw [enforce]
  split
  · exact kernelUnblockIp_record limiter moment ip
  · exact kernelBlockIp_record limiter moment ip

theorem restoreEntry_config {after : Limiter} {entry : PersistedLockout}
    (restored : limiter.restoreEntry moment entry = some after) : after.config = limiter.config := by
  rw [restoreEntry] at restored
  split at restored
  · cases restored
    rfl
  · simp only at restored
    split at restored
    · cases restored
      exact (kernelUnblockIp_record limiter moment entry.ip).2
    · obtain ⟨until_, -, rfl⟩ := Option.map_eq_some_iff.mp restored
      exact (enforce_record limiter moment entry.ip).2

theorem restoreAll_config {after : Limiter} {entries : List PersistedLockout}
    (restored : limiter.restoreAll moment entries = some after) : after.config = limiter.config := by
  induction entries generalizing limiter with
  | nil =>
    cases restored
    rfl
  | cons entry rest ih =>
    obtain ⟨next, first, later⟩ := Option.bind_eq_some_iff.mp restored
    exact (ih later).trans (restoreEntry_config first)

theorem step_config {call : Call} {after : Limiter} (stepped : limiter.step moment call = some after) :
    after.config = limiter.config := by
  rcases step_cases stepped with ⟨-, outcome⟩ | ⟨-, -, restored⟩
  · cases outcome with
    | idle => rfl
    | noted ip rec untrusted lock => rfl
    | locked ip rec untrusted lock => exact (lockOut_record limiter moment ip rec).2
    | cleared ip => rfl
    | unblocked ip => exact (persistLockouts_record _ moment).2.trans (kernelUnblockIp_record _ moment ip).2
    | cleaned =>
      simp only [cleanup]
      split
      · exact (unblockAll_record _ moment _).2
      · exact (persistLockouts_record _ moment).2.trans (unblockAll_record _ moment _).2
    | stopped => rfl
  · rw [restorePersistedLockouts] at restored
    split at restored
    · have kept := restoreAll_config restored
      exact kept
    · cases restored
      rfl

def failuresIn (limiter : Limiter) (moment : Moment) (ip : String) : Nat :=
  (limiter.recent moment ((limiter.record ip).getD .default).failures).length

/-- A failure that leaves enough of them inside the window locks its address out. -/
def Rearms (limiter : Limiter) (moment : Moment) (call : Call) : Prop :=
  ∀ ip username after, call = .recordFailureWith ip username → limiter.config.isTrusted ip = false →
    limiter.step moment call = some after → limiter.config.maxFailures ≤ after.failuresIn moment ip →
    after.isLockedOut moment.now ip = true

/-- A failure that reaches the threshold finds no lock that has run out, and where it
sets one itself, that does not run out at once. -/
def Unexpired (limiter : Limiter) (moment : Moment) (call : Call) : Prop :=
  ∀ ip username, call = .recordFailureWith ip username → limiter.config.isTrusted ip = false → limiter.running = true →
    0 < limiter.config.windowSeconds → limiter.config.maxFailures ≤ limiter.failuresIn moment ip + 1 →
    match limiter.lock ip with
    | some until_ => moment.now < until_
    | none => 0 < limiter.config.lockoutSeconds ∨ addSeconds moment.now limiter.config.lockoutSeconds = none

theorem recent_recent (limiter : Limiter) (moment : Moment) (failures : List Nat) (window : 0 < limiter.config.windowSeconds) :
    limiter.recent moment (limiter.recent moment failures ++ [moment.now]) = limiter.recent moment failures ++ [moment.now] := by
  have inside : moment.now - moment.now < limiter.config.windowSeconds * nanos := by
    rw [Nat.sub_self]
    exact Nat.mul_pos window nanos_pos
  rw [recent, List.filter_append, recent, List.filter_filter]
  simp only [Nat.sub_self] at inside
  simp [inside]

theorem recent_none (limiter : Limiter) (moment : Moment) (failures : List Nat) (window : limiter.config.windowSeconds = 0) :
    limiter.recent moment failures = [] := by
  simp [recent, window]

theorem recordFailureWith_record {username : String} {after : Limiter} (enabled : limiter.config.enabled = true)
    (untrusted : limiter.config.isTrusted ip = false)
    (stepped : limiter.step moment (.recordFailureWith ip username) = some after) :
    limiter.running = true ∧ after.config = limiter.config ∧ ∃ lock, after.record ip =
        some ⟨limiter.recent moment ((limiter.record ip).getD .default).failures ++ [moment.now], lock, username⟩ ∧
      if limiter.config.maxFailures ≤ limiter.failuresIn moment ip + 1 ∧ limiter.lock ip = none
        then lock = addSeconds moment.now limiter.config.lockoutSeconds ∧ lock ≠ none
        else lock = limiter.lock ip := by
  have config := step_config stepped
  obtain ⟨running, found⟩ := serve_some.mp stepped
  refine ⟨running, config, ?_⟩
  simp only [recordFailureWith, untrusted, enabled, Bool.not_true, Bool.false_eq_true, if_false, ge_iff_le,
    List.length_append, List.length_singleton] at found
  split at found
  · rename_i reached
    obtain ⟨outcome, called, rfl⟩ := Option.map_eq_some_iff.mp found
    obtain ⟨until_, set, rfl⟩ := Option.map_eq_some_iff.mp called
    refine ⟨some until_, (lockOut_record limiter moment ip _).1, ?_⟩
    rw [if_pos (by exact reached)]
    exact ⟨set.symm, nofun⟩
  · rename_i unreached
    simp only [Option.map_some, Option.some.injEq] at found
    subst found
    refine ⟨limiter.lock ip, record_put limiter ip _, ?_⟩
    rw [if_neg (by exact unreached)]

theorem recordFailureWith_returns (username : String) (running : limiter.running = true)
    (enabled : limiter.config.enabled = true) (untrusted : limiter.config.isTrusted ip = false)
    (calm : limiter.lock ip = none → addSeconds moment.now limiter.config.lockoutSeconds ≠ none) :
    ∃ after, limiter.step moment (.recordFailureWith ip username) = some after := by
  have returned : ∃ result, limiter.recordFailureWith moment ip username = some result := by
    simp only [recordFailureWith, untrusted, enabled, Bool.not_true, Bool.false_eq_true, if_false]
    split
    · rename_i reached
      obtain ⟨until_, set⟩ := Option.ne_none_iff_exists'.mp (calm reached.2)
      exact ⟨_, by rw [set]; rfl⟩
    · exact ⟨_, rfl⟩
  obtain ⟨result, called⟩ := returned
  exact ⟨result.1, serve_some.mpr ⟨running, by rw [called]; rfl⟩⟩

theorem isLockedOut_record {rec : AttemptRecord} (now : Nat) (enabled : limiter.config.enabled = true)
    (untrusted : limiter.config.isTrusted ip = false) (found : limiter.record ip = some rec) :
    limiter.isLockedOut now ip = rec.lockedUntil.any (· > now) := by
  simp [isLockedOut, untrusted, enabled, found]

theorem failuresIn_after {after : Limiter} {lock : Option Nat} {username : String} (config : after.config = limiter.config)
    (found : after.record ip =
      some ⟨limiter.recent moment ((limiter.record ip).getD .default).failures ++ [moment.now], lock, username⟩) :
    after.failuresIn moment ip = if 0 < limiter.config.windowSeconds then limiter.failuresIn moment ip + 1 else 0 := by
  have same (failures : List Nat) : after.recent moment failures = limiter.recent moment failures := by
    rw [recent, recent, config]
  rw [failuresIn, found, Option.getD_some, same]
  split
  · rename_i window
    rw [recent_recent limiter moment _ window, List.length_append]
    rfl
  · rename_i window
    rw [recent_none limiter moment _ (by omega)]
    rfl

theorem rearms_iff (moment : Moment) (call : Call) (enabled : limiter.config.enabled = true)
    (positive : 1 ≤ limiter.config.maxFailures) : limiter.Rearms moment call ↔ limiter.Unexpired moment call := by
  constructor
  · rintro rearms ip username rfl untrusted running window reached
    -- the address is locked out by whatever lock the call leaves
    have after_locked (calm : limiter.lock ip = none → addSeconds moment.now limiter.config.lockoutSeconds ≠ none) :
        ∃ lock : Option Nat, lock.any (· > moment.now) = true ∧
          if limiter.config.maxFailures ≤ limiter.failuresIn moment ip + 1 ∧ limiter.lock ip = none
            then lock = addSeconds moment.now limiter.config.lockoutSeconds ∧ lock ≠ none
            else lock = limiter.lock ip := by
      obtain ⟨after, stepped⟩ := recordFailureWith_returns username running enabled untrusted calm
      obtain ⟨-, config, lock, found, set⟩ := recordFailureWith_record enabled untrusted stepped
      have enough : limiter.config.maxFailures ≤ after.failuresIn moment ip := by
        rw [failuresIn_after config found, if_pos window]
        exact reached
      have locked := rearms ip username after rfl untrusted stepped enough
      rw [isLockedOut_record moment.now (config ▸ enabled) (config ▸ untrusted) found] at locked
      exact ⟨lock, locked, set⟩
    cases held : limiter.lock ip with
    | some until_ =>
      obtain ⟨lock, locked, set⟩ := after_locked (by simp [held])
      rw [if_neg (by simp [held])] at set
      simpa [set, held] using locked
    | none =>
      by_cases panics : addSeconds moment.now limiter.config.lockoutSeconds = none
      · exact .inr panics
      · obtain ⟨lock, locked, set⟩ := after_locked fun _ => panics
        rw [if_pos ⟨reached, held⟩] at set
        obtain ⟨until_, added⟩ := Option.ne_none_iff_exists'.mp panics
        rw [set.1, added, Option.any_some, decide_eq_true_eq] at locked
        exact .inl ((addSeconds_later added).mp locked)
  · rintro unexpired ip username after rfl untrusted stepped enough
    obtain ⟨running, config, lock, found, set⟩ := recordFailureWith_record enabled untrusted stepped
    rw [failuresIn_after config found] at enough
    split at enough
    · rename_i window
      have held := unexpired ip username rfl untrusted running window enough
      rw [isLockedOut_record moment.now (config ▸ enabled) (config ▸ untrusted) found]
      cases known : limiter.lock ip with
      | some until_ =>
        rw [if_neg (by simp [known]), known] at set
        rw [known] at held
        simpa [set] using held
      | none =>
        rw [if_pos ⟨enough, known⟩] at set
        rw [known] at held
        rcases held with long | panics
        · obtain ⟨until_, locked⟩ := Option.ne_none_iff_exists'.mp set.2
          rw [locked, Option.any_some, decide_eq_true_eq]
          exact (addSeconds_later (set.1.symm.trans locked)).mpr long
        · exact absurd (set.1.trans panics) set.2
    · omega

/-- In every run, every failure locks its address out as it should exactly when, in
that run, no failure that reaches the threshold meets an expired lock. -/
theorem rearms_throughout (start : Limiter) (calls : List (Moment × Call)) (enabled : start.config.enabled = true)
    (positive : 1 ≤ start.config.maxFailures) : Throughout Rearms start calls ↔ Throughout Unexpired start calls := by
  apply throughout_congr fun limiter => limiter.config = start.config
  · intro limiter moment call after same stepped
    exact (step_config stepped).trans same
  · intro limiter moment call same
    exact rearms_iff moment call (same ▸ enabled) (same ▸ positive)
  · rfl

end Limiter

def atSecond (second : Nat) : Moment where
  now := second * nanos
  savedAt := second * nanos
  unix := 1790000000 + second
  protectedIps := []
  unblockable := []
  stuck := []
  write := .done

def freshLimiter : Limiter where
  config := .default
  running := true
  attempts := []
  kernel := []
  file := none
  writtenAt := 0

def failureAt (second : Nat) : Moment × Call := (atSecond second, .recordFailureWith "192.0.2.7" "root")

def sprayAgain : List (Moment × Call) :=
  [failureAt 0, failureAt 1, failureAt 2, failureAt 172810, failureAt 172811] ++ [failureAt 172812]

theorem rearms_throughout_sample :
    Throughout Limiter.Rearms freshLimiter sprayAgain ↔ Throughout Limiter.Unexpired freshLimiter sprayAgain :=
  Limiter.rearms_throughout freshLimiter sprayAgain rfl (by decide)

/-- The last failure is the third inside the window and leaves the address unlocked. -/
theorem expired_lock_disarms : ¬Throughout Limiter.Rearms freshLimiter sprayAgain := by
  intro all
  have missed : ((freshLimiter.run [failureAt 0, failureAt 1, failureAt 2, failureAt 172810, failureAt 172811]).bind
      fun state => (state.step (failureAt 172812).1 (failureAt 172812).2).map fun after =>
        (state.config.isTrusted "192.0.2.7", decide (state.config.maxFailures ≤ after.failuresIn (atSecond 172812) "192.0.2.7"),
          after.isLockedOut (172812 * nanos) "192.0.2.7")) = some (false, true, false) := by
    decide +kernel
  obtain ⟨state, reached, found⟩ := Option.bind_eq_some_iff.mp missed
  obtain ⟨after, stepped, facts⟩ := Option.map_eq_some_iff.mp found
  simp only [Prod.mk.injEq, decide_eq_true_eq] at facts
  have locked := all.reached reached "192.0.2.7" "root" after rfl facts.1 stepped facts.2.1
  exact Bool.false_ne_true (facts.2.2.symm.trans locked)

end Auth
