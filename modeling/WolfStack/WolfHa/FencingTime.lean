import WolfStack.Auth.ClusterSecret
import WolfStack.Auth.LoginLimiter
import WolfStack.WolfHa.Entry
import WolfStack.WolfHa.SnapshotNames

/-! How long a partition lasts before the primary stops its copy, and before a standby
starts another. Both count from their own first tick, and ticks are fifteen seconds apart. -/

namespace WolfHa
open Auth

/-- `wolfha_validate_auto`: the witness and `failover_after_secs` as they are stored. -/
def wolfhaValidateAuto (autoFailover : Bool) (witness : String) (failoverAfterSecs : Nat) :
    Except String (String × Nat) :=
  let witness := trim witness
  if autoFailover && witness = "" then
    .error "automatic failover needs a witness IP (normally your gateway) — a node only acts while it can ping the witness"
  else if autoFailover && (!isSafeName witness || (parseIp witness).isNone && !decide ('.' ∈ witness.toList)) then
    .error s!"'{witness}' does not look like a witness IP or hostname"
  else .ok (witness, if failoverAfterSecs = 0 then 90 else max failoverAfterSecs 30)

theorem wolfhaValidateAuto_secs {autoFailover : Bool} {witness stored : String} {failoverAfterSecs after : Nat}
    (accepted : wolfhaValidateAuto autoFailover witness failoverAfterSecs = .ok (stored, after)) :
    after = if failoverAfterSecs = 0 then 90 else max failoverAfterSecs 30 := by
  simp only [wolfhaValidateAuto] at accepted
  split at accepted
  · cases accepted
  · split at accepted
    · cases accepted
    · cases accepted
      rfl

def fenceSecs (failoverAfter : Nat) : Nat := max (failoverAfter / 2) 30

def witnessKey (container : String) : String := s!"witness:{container}"

def primaryKey (container : String) : String := s!"primary:{container}"

/-- `FAIL_SINCE`: the instants, in nanoseconds, from which conditions have been failing. -/
abbrev FailSince := String → Option Nat

/-- A clock starts when its condition is first seen failing, and counts whole seconds. -/
def failElapsed (since : FailSince) (key : String) (failing : Bool) (now : Nat) : FailSince × Nat :=
  if failing then
    let start := (since key).getD now
    (Function.update since key (some start), (now - start) / nanos)
  else (Function.update since key none, 0)

def tickNanos : Nat := 15 * nanos

/-- The instant of a tick of a monitor whose first one falls so long after the partition. -/
def tickAt (phase count : Nat) : Nat := phase + count * tickNanos

/-- The clocks before a tick, when a condition has failed at every one since the partition. -/
def sinceAt (since : FailSince) (key : String) (phase : Nat) : Nat → FailSince
  | 0 => since
  | count + 1 => (failElapsed (sinceAt since key phase count) key true (tickAt phase count)).1

def elapsedAt (since : FailSince) (key : String) (phase count : Nat) : Nat :=
  (failElapsed (sinceAt since key phase count) key true (tickAt phase count)).2

def ReachesAt (since : FailSince) (key : String) (phase bound count : Nat) : Prop :=
  bound ≤ elapsedAt since key phase count ∧ ∀ earlier < count, elapsedAt since key phase earlier < bound

variable {since : FailSince} {key : String} {phase : Nat}

theorem failElapsed_since (now : Nat) : (failElapsed since key true now).1 key = some ((since key).getD now) := by
  rw [failElapsed, if_pos rfl]
  exact Function.update_self ..

theorem failElapsed_seconds (now : Nat) : (failElapsed since key true now).2 = (now - (since key).getD now) / nanos := by
  rw [failElapsed, if_pos rfl]

theorem failElapsed_cleared (now : Nat) : (failElapsed since key false now).1 key = none := by
  rw [failElapsed, if_neg Bool.false_ne_true]
  exact Function.update_self ..

theorem tickAt_zero (phase : Nat) : tickAt phase 0 = phase := by rw [tickAt, Nat.zero_mul, Nat.add_zero]

theorem sinceAt_succ (cleared : since key = none) (count : Nat) : sinceAt since key phase (count + 1) key = some phase := by
  induction count with
  | zero => rw [sinceAt, failElapsed_since, sinceAt, cleared, Option.getD_none, tickAt_zero]
  | succ count ih => rw [sinceAt, failElapsed_since, ih, Option.getD_some]

theorem elapsedAt_eq (cleared : since key = none) (count : Nat) : elapsedAt since key phase count = 15 * count := by
  have start : (sinceAt since key phase count key).getD (tickAt phase count) = phase := by
    cases count with
    | zero => rw [sinceAt, cleared, Option.getD_none, tickAt_zero]
    | succ count => rw [sinceAt_succ cleared, Option.getD_some]
  have gap : tickAt phase count - phase = 15 * count * nanos := by
    rw [tickAt, tickNanos, Nat.add_sub_cancel_left, ← Nat.mul_assoc, Nat.mul_comm count]
  rw [elapsedAt, failElapsed_seconds, start, gap, Nat.mul_div_cancel _ nanos_pos]

theorem reachesAt_iff (cleared : since key = none) (bound count : Nat) :
    ReachesAt since key phase bound count ↔ bound ≤ 15 * count ∧ (count = 0 ∨ 15 * (count - 1) < bound) := by
  simp only [ReachesAt, elapsedAt_eq cleared]
  constructor
  · intro reached
    obtain ⟨enough, before⟩ := reached
    refine ⟨enough, ?_⟩
    by_cases first : count = 0
    · exact .inl first
    · exact .inr (before (count - 1) (by omega))
  · intro reached
    refine ⟨reached.1, ?_⟩
    intro earlier less
    omega

theorem reachesAt_ceil (cleared : since key = none) (bound count : Nat) :
    ReachesAt since key phase bound count ↔ count = (bound + 14) / 15 := by
  rw [reachesAt_iff cleared]
  omega

/-- The primary, cut off from its witness and its replicas, reaches its fencing time at an
earlier tick than the standby, cut off from the primary, reaches the failover time. The
clocks are those that the last tick before the partition left. -/
def FencesFirst (container : String) (failoverAfter : Nat) (primary standby : FailSince) (before phase phase' : Nat) : Prop :=
  ∃ fence promote,
    ReachesAt (failElapsed primary (witnessKey container) false before).1 (witnessKey container) phase
      (fenceSecs failoverAfter) fence ∧
    ReachesAt (failElapsed standby (primaryKey container) false before).1 (primaryKey container) phase'
      failoverAfter promote ∧
    tickAt phase fence < tickAt phase' promote

theorem tickAt_lt_iff {phase phase' : Nat} (near : phase < tickNanos) (near' : phase' < tickNanos) (count count' : Nat) :
    tickAt phase count < tickAt phase' count' ↔ count < count' ∨ count = count' ∧ phase < phase' := by
  rw [tickAt, tickAt]
  obtain less | same | more := Nat.lt_trichotomy count count'
  · have apart : (count + 1) * tickNanos ≤ count' * tickNanos := Nat.mul_le_mul_right _ less
    rw [Nat.succ_mul] at apart
    omega
  · subst same
    omega
  · have apart : (count' + 1) * tickNanos ≤ count * tickNanos := Nat.mul_le_mul_right _ more
    rw [Nat.succ_mul] at apart
    omega

/-- The primary is fenced before the standby is promoted unless the stored failover time
is the fencing time's floor and the standby's ticks do not come later. -/
theorem fencesFirst_iff {autoFailover : Bool} {witness stored : String} {failoverAfterSecs after phase phase' : Nat}
    (accepted : wolfhaValidateAuto autoFailover witness failoverAfterSecs = .ok (stored, after))
    (near : phase < tickNanos) (near' : phase' < tickNanos) (container : String) (primary standby : FailSince) (before : Nat) :
    FencesFirst container after primary standby before phase phase' ↔
      failoverAfterSecs = 0 ∨ 30 < failoverAfterSecs ∨ phase < phase' := by
  have clearedPrimary : (failElapsed primary (witnessKey container) false before).1 (witnessKey container) = none :=
    failElapsed_cleared before
  have clearedStandby : (failElapsed standby (primaryKey container) false before).1 (primaryKey container) = none :=
    failElapsed_cleared before
  have secs := wolfhaValidateAuto_secs accepted
  have race : FencesFirst container after primary standby before phase phase' ↔
      tickAt phase ((fenceSecs after + 14) / 15) < tickAt phase' ((after + 14) / 15) := by
    simp only [FencesFirst, reachesAt_ceil clearedPrimary, reachesAt_ceil clearedStandby]
    constructor
    · intro first
      obtain ⟨fence, promote, rfl, rfl, earlier⟩ := first
      exact earlier
    · intro earlier
      exact ⟨_, _, rfl, rfl, earlier⟩
  rw [race, tickAt_lt_iff near near', fenceSecs]
  split at secs
  · omega
  · omega

theorem fencesFirst_iff_sample :
    FencesFirst "web" 90 (fun _ => none) (fun _ => none) 0 (3 * nanos) (1 * nanos) ↔
      90 = 0 ∨ 30 < 90 ∨ 3 * nanos < 1 * nanos :=
  fencesFirst_iff (show wolfhaValidateAuto true "192.168.1.1" 90 = .ok ("192.168.1.1", 90) by decide +kernel)
    (by decide) (by decide) "web" (fun _ => none) (fun _ => none) 0

/-- At thirty seconds both clocks run out at their third tick, the standby's first. -/
theorem standby_first_at_thirty : wolfhaValidateAuto true "192.168.1.1" 30 = .ok ("192.168.1.1", 30) ∧
    ¬FencesFirst "web" 30 (fun _ => none) (fun _ => none) 0 (3 * nanos) (1 * nanos) := by
  refine ⟨by decide +kernel, ?_⟩
  intro first
  obtain ⟨fence, promote, fenced, promoted, earlier⟩ := first
  rw [reachesAt_ceil (failElapsed_cleared 0)] at fenced promoted
  subst fenced promoted
  exact absurd earlier (by decide)

end WolfHa
