import WolfStack.Auth.KernelBlocks

/-! Locks over a restart. The file keeps a start and a length for each; the length is that of
the configuration, and the start is reckoned back from it. -/

namespace Auth
namespace Limiter

variable {limiter after : Limiter} {saved later moment : Moment} {entry : PersistedLockout} {entries : List PersistedLockout}
  {ip other : String}

def left (entry : PersistedLockout) (moment : Moment) : Nat := min (entry.lockedAt + entry.lockoutSeconds) maxU64 - moment.unix

theorem lock_of_record (same : after.record ip = limiter.record ip) : after.lock ip = limiter.lock ip := by
  rw [lock, lock, same]

theorem record_put_other (limiter : Limiter) (rec : AttemptRecord) (apart : other ≠ ip) :
    (limiter.put ip rec).record other = limiter.record other := by
  have differs : (other == ip) = false := beq_eq_false_iff_ne.mpr apart
  have kept : ∀ attempts : List (String × AttemptRecord),
      (attempts.filter fun known => decide (known.1 ≠ ip)).lookup other = attempts.lookup other := by
    intro attempts
    induction attempts with
    | nil => rfl
    | cons known rest ih =>
      obtain ⟨key, held⟩ := known
      by_cases same : key = ip
      · rw [List.filter_cons_of_neg (by simp [same]), List.lookup_cons, same, differs]
        exact ih
      · rw [List.filter_cons_of_pos (by simp [same]), List.lookup_cons, List.lookup_cons, ih]
  rw [record, put, List.lookup_cons, differs]
  exact kept limiter.attempts

theorem record_enforce (limiter : Limiter) (moment : Moment) (target : String) :
    (limiter.enforce moment target).record ip = limiter.record ip := by
  rw [record, record, (enforce_record limiter moment target).1]

theorem record_unblocked (limiter : Limiter) (moment : Moment) (target : String) :
    (limiter.kernelUnblockIp moment target).record ip = limiter.record ip := by
  rw [record, record, (kernelUnblockIp_record limiter moment target).1]

theorem restoreEntry_other (restored : limiter.restoreEntry moment entry = some after) (apart : other ≠ entry.ip) :
    after.record other = limiter.record other := by
  rw [restoreEntry] at restored
  split at restored
  · cases restored
    rfl
  · dsimp only at restored
    split at restored
    · cases restored
      exact record_unblocked limiter moment entry.ip
    · obtain ⟨until_, -, rfl⟩ := Option.map_eq_some_iff.mp restored
      rw [record_put_other _ _ apart, record_enforce]

theorem restoreEntry_own (untrusted : limiter.config.isTrusted entry.ip = false)
    (restored : limiter.restoreEntry moment entry = some after) :
    after.lock entry.ip = if left entry moment = 0 then limiter.lock entry.ip
      else some (moment.now + left entry moment * nanos) := by
  rw [restoreEntry, untrusted, if_neg Bool.false_ne_true] at restored
  dsimp only at restored
  rw [left]
  split at restored
  · rename_i over_
    cases restored
    rw [if_pos (by omega)]
    exact lock_of_record (record_unblocked limiter moment entry.ip)
  · rename_i running
    obtain ⟨until_, added, rfl⟩ := Option.map_eq_some_iff.mp restored
    obtain ⟨-, sum⟩ := Option.ite_none_right_eq_some.mp added
    rw [if_neg (by omega), ← Option.some.inj sum, lock, record_put]
    rfl

theorem restoreEntry_returns (holds : limiter.config.isTrusted entry.ip = false → left entry moment ≠ 0 →
    (addSeconds moment.now (left entry moment)).isSome) : ∃ after, limiter.restoreEntry moment entry = some after := by
  rw [restoreEntry]
  split
  · exact ⟨_, rfl⟩
  · rename_i untrusted
    dsimp only
    split
    · exact ⟨_, rfl⟩
    · rename_i running
      have some_ := holds (by simpa using untrusted) (by rw [left]; omega)
      rw [left] at some_
      obtain ⟨until_, added⟩ := Option.isSome_iff_exists.mp some_
      rw [added]
      exact ⟨_, rfl⟩

theorem restoreAll_other (restored : limiter.restoreAll moment entries = some after)
    (absent : ∀ entry ∈ entries, other ≠ entry.ip) : after.record other = limiter.record other := by
  induction entries generalizing limiter with
  | nil =>
    cases restored
    rfl
  | cons entry rest ih =>
    obtain ⟨next, first, rest_⟩ := Option.bind_eq_some_iff.mp restored
    rw [List.forall_mem_cons] at absent
    rw [ih rest_ absent.2, restoreEntry_other first absent.1]

theorem restoreAll_own (distinct : (entries.map fun entry => entry.ip).Nodup) (member : entry ∈ entries)
    (untrusted : limiter.config.isTrusted entry.ip = false) (restored : limiter.restoreAll moment entries = some after) :
    after.lock entry.ip = if left entry moment = 0 then limiter.lock entry.ip
      else some (moment.now + left entry moment * nanos) := by
  induction entries generalizing limiter with
  | nil => cases member
  | cons first rest ih =>
    obtain ⟨next, now_, later_⟩ := Option.bind_eq_some_iff.mp restored
    obtain ⟨fresh, distinct⟩ := List.nodup_cons.mp distinct
    obtain rfl | inside := List.mem_cons.mp member
    · have absent : ∀ other ∈ rest, entry.ip ≠ other.ip := fun other within_ same =>
        fresh (List.mem_map.mpr ⟨other, within_, same.symm⟩)
      rw [lock_of_record (restoreAll_other later_ absent)]
      exact restoreEntry_own untrusted now_
    · have apart : entry.ip ≠ first.ip := fun same => fresh (List.mem_map.mpr ⟨entry, inside, same⟩)
      rw [ih distinct inside (by rw [restoreEntry_config now_]; exact untrusted) later_,
        lock_of_record (restoreEntry_other now_ apart)]

theorem restoreAll_returns (holds : ∀ entry ∈ entries, limiter.config.isTrusted entry.ip = false → left entry moment ≠ 0 →
    (addSeconds moment.now (left entry moment)).isSome) : ∃ after, limiter.restoreAll moment entries = some after := by
  induction entries generalizing limiter with
  | nil => exact ⟨limiter, rfl⟩
  | cons entry rest ih =>
    rw [List.forall_mem_cons] at holds
    obtain ⟨next, first⟩ := restoreEntry_returns holds.1
    have rest_ : ∀ entry ∈ rest, next.config.isTrusted entry.ip = false → left entry moment ≠ 0 →
        (addSeconds moment.now (left entry moment)).isSome := by
      rw [restoreEntry_config first]
      exact holds.2
    obtain ⟨after, restored⟩ := ih rest_
    exact ⟨after, Option.bind_eq_some_iff.mpr ⟨next, first, restored⟩⟩

/-! ### A restart -/

/-- The file is written, the process stops, and another one starts from the file. -/
def restarted (limiter : Limiter) (saved later : Moment) : Option Limiter :=
  (limiter.persistLockouts saved).run [(saved, .stop), (later, .start)]

def snapshot (limiter : Limiter) (saved : Moment) : List PersistedLockout :=
  limiter.attempts.filterMap (persisted limiter.config saved)

structure After (saved later : Moment) (seconds : Nat) : Prop where
  now : later.now = saved.savedAt + seconds * nanos
  unix : later.unix = saved.unix + seconds

/-- Unix times and instants are i64 seconds, lengths are u64. -/
structure InRange (limiter : Limiter) (saved : Moment) : Prop where
  unix : saved.unix < 2 ^ 63
  length : limiter.config.lockoutSeconds ≤ maxU64
  locks : ∀ known ∈ limiter.attempts, ∀ until_, known.2.lockedUntil = some until_ → until_ / nanos < 2 ^ 63

theorem restarted_eq (running : limiter.running = true) (write : saved.write = .done) :
    ∃ blank : Limiter, blank.attempts = [] ∧ blank.config = limiter.config ∧
      limiter.restarted saved later = blank.restoreAll later (limiter.snapshot saved) := by
  refine ⟨{ (limiter.persistLockouts saved) with running := true, attempts := [] }, rfl,
    (persistLockouts_record limiter saved).2, ?_⟩
  simp [restarted, run, step, serve, persistLockouts, write, running, restorePersistedLockouts, snapshot]

/-- The whole seconds that an address's lock has left, none without a lock. -/
def secondsLeft (limiter : Limiter) (now : Nat) (ip : String) : Nat :=
  match limiter.lock ip with
  | some until_ => (until_ - now) / nanos
  | none => 0

/-- A lock ends at the same second as it would have, and outside of that second it holds exactly
when it would have held. -/
structure Survives (before after : Limiter) (now : Nat) (ip : String) (until_ : Nat) : Prop where
  seconds : after.secondsLeft now ip = (until_ - now) / nanos
  locked : ∀ x, now ≤ x → x + nanos ≤ until_ ∨ until_ ≤ x → after.isLockedOut x ip = before.isLockedOut x ip

/-- Every lock that was still on when the file was written survives the restart. -/
def LockoutsSurvive (limiter : Limiter) (saved later : Moment) : Prop :=
  ∃ after, limiter.restarted saved later = some after ∧
    ∀ known ∈ limiter.attempts, ∀ until_, known.2.lockedUntil = some until_ → saved.savedAt < until_ →
      limiter.config.isTrusted known.1 = false → Survives limiter after later.now known.1 until_

/-- A lock has no more seconds left than the configured length, and that length is no more than
what is left and the Unix time together, unless both have run out at the restart. -/
def Reckoned (config : LoginLockoutConfig) (saved : Moment) (seconds until_ : Nat) : Prop :=
  let remaining := (until_ - saved.savedAt) / nanos
  remaining ≤ max config.lockoutSeconds seconds ∧ config.lockoutSeconds ≤ saved.unix + max remaining seconds

theorem snapshot_distinct (distinct : (limiter.attempts.map fun known => known.1).Nodup) :
    ((limiter.snapshot saved).map fun entry => entry.ip).Nodup := by
  have named : ∀ attempts : List (String × AttemptRecord),
      ((attempts.filterMap (persisted limiter.config saved)).map fun entry => entry.ip).Sublist
        (attempts.map fun known => known.1) := by
    intro attempts
    induction attempts with
    | nil => exact .slnil
    | cons known rest ih =>
      cases kept : persisted limiter.config saved known with
      | none =>
        rw [List.filterMap_cons_none kept]
        exact ih.cons _
      | some entry =>
        have same : entry.ip = known.1 := by
          rw [persisted] at kept
          split at kept
          · split at kept
            · cases kept
              rfl
            · cases kept
          · cases kept
        rw [List.filterMap_cons_some kept, List.map_cons, List.map_cons, same]
        exact ih.cons_cons _
  exact distinct.sublist (named limiter.attempts)

def filedAs (config : LoginLockoutConfig) (saved : Moment) (ip : String) (until_ : Nat) : PersistedLockout :=
  ⟨ip, saved.unix - (config.lockoutSeconds - (until_ - saved.savedAt) / nanos), config.lockoutSeconds⟩

theorem mem_snapshot : entry ∈ limiter.snapshot saved ↔ ∃ known ∈ limiter.attempts, ∃ until_,
    known.2.lockedUntil = some until_ ∧ saved.savedAt < until_ ∧ entry = filedAs limiter.config saved known.1 until_ := by
  rw [snapshot, List.mem_filterMap]
  refine exists_congr fun known => and_congr_right fun _ => ?_
  rw [persisted]
  split
  · rename_i until_ held
    simp only [held, Option.some.injEq, exists_eq_left', filedAs]
    split
    · rename_i running
      rw [Option.some.injEq]
      exact ⟨fun same => ⟨running, same.symm⟩, fun same => same.2.symm⟩
    · rename_i over_
      exact iff_of_false (by simp) fun running => over_ running.1
  · rename_i unlocked
    simp [unlocked]

theorem left_filedAs {seconds until_ : Nat} (passed : After saved later seconds) (unix : saved.unix < 2 ^ 63)
    (length : limiter.config.lockoutSeconds ≤ maxU64) (held : until_ / nanos < 2 ^ 63) (ip : String) :
    left (filedAs limiter.config saved ip until_) later = (until_ - later.now) / nanos ↔
      Reckoned limiter.config saved seconds until_ := by
  have remaining : (until_ - later.now) / nanos = (until_ - saved.savedAt) / nanos - seconds := by
    rw [passed.now, ← Nat.sub_sub, Nat.mul_comm seconds nanos, Nat.sub_mul_div]
  have bounded : (until_ - saved.savedAt) / nanos < 2 ^ 63 :=
    Nat.lt_of_le_of_lt (Nat.div_le_div_right (Nat.sub_le _ _)) held
  rw [remaining, left, Reckoned, filedAs, passed.unix]
  dsimp only
  generalize (until_ - saved.savedAt) / nanos = rest at bounded
  rw [maxU64] at length ⊢
  omega

theorem isLockedOut_lock (untrusted : limiter.config.isTrusted ip = false) (now : Nat) :
    limiter.isLockedOut now ip = (limiter.config.enabled && (limiter.lock ip).any fun until_ => decide (until_ > now)) := by
  rw [isLockedOut, untrusted, Bool.false_or, lock]
  cases limiter.config.enabled with
  | false => rfl
  | true =>
    cases limiter.record ip with
    | none => rfl
    | some rec => rfl

theorem lock_known (distinct : (limiter.attempts.map fun known => known.1).Nodup) {known : String × AttemptRecord}
    (member : known ∈ limiter.attempts) : limiter.lock known.1 = known.2.lockedUntil := by
  rw [lock, record, record_of_mem distinct member, Option.getD_some]

theorem restored_lock {blank : Limiter} (empty : blank.attempts = []) (config : blank.config = limiter.config)
    (distinct : (limiter.attempts.map fun known => known.1).Nodup)
    (restored : blank.restoreAll later (limiter.snapshot saved) = some after) {known : String × AttemptRecord}
    (member : known ∈ limiter.attempts) {until_ : Nat} (held : known.2.lockedUntil = some until_)
    (running : saved.savedAt < until_) (untrusted : limiter.config.isTrusted known.1 = false) :
    after.lock known.1 =
      if left (filedAs limiter.config saved known.1 until_) later = 0 then none
      else some (later.now + left (filedAs limiter.config saved known.1 until_) later * nanos) := by
  have filed : filedAs limiter.config saved known.1 until_ ∈ limiter.snapshot saved :=
    mem_snapshot.mpr ⟨known, member, until_, held, running, rfl⟩
  have own := restoreAll_own (snapshot_distinct distinct) filed (by rw [config]; exact untrusted) restored
  have unlocked : blank.lock known.1 = none := by
    rw [lock, record, empty]
    rfl
  rw [← unlocked]
  exact own

theorem restored_survives {n until_ now : Nat} (same : n = (until_ - now) / nanos)
    (kept : after.lock ip = if n = 0 then none else some (now + n * nanos)) (before : limiter.lock ip = some until_)
    (config : after.config = limiter.config) (untrusted : limiter.config.isTrusted ip = false) :
    Survives limiter after now ip until_ := by
  have whole : n * nanos ≤ until_ - now := by
    rw [same]
    exact Nat.div_mul_le_self _ _
  have part : until_ - now < n * nanos + nanos := by
    have below := Nat.lt_mul_div_succ (until_ - now) nanos_pos
    rw [same, Nat.mul_comm _ nanos, ← Nat.mul_succ]
    exact below
  constructor
  · rw [secondsLeft, kept, ← same]
    by_cases over_ : n = 0
    · rw [if_pos over_]
      exact over_.symm
    · rw [if_neg over_]
      dsimp only
      rw [Nat.add_sub_cancel_left, Nat.mul_div_cancel _ nanos_pos]
  · intro x following apart
    rw [isLockedOut_lock untrusted, isLockedOut_lock (by rw [config]; exact untrusted), config, kept, before]
    congr 1
    by_cases over_ : n = 0
    · rw [if_pos over_, Option.any_none, Option.any_some]
      rw [over_, Nat.zero_mul, Nat.zero_add] at part
      exact (decide_eq_false (by omega)).symm
    · rw [if_neg over_, Option.any_some, Option.any_some, decide_eq_decide]
      omega

/-- Every lock survives a restart to the second exactly if every one is reckoned right. -/
theorem lockouts_survive_iff {seconds : Nat} (running : limiter.running = true)
    (distinct : (limiter.attempts.map fun known => known.1).Nodup) (range : InRange limiter saved)
    (write : saved.write = .done) (passed : After saved later seconds) :
    limiter.LockoutsSurvive saved later ↔ ∀ known ∈ limiter.attempts, ∀ until_, known.2.lockedUntil = some until_ →
      saved.savedAt < until_ → limiter.config.isTrusted known.1 = false → Reckoned limiter.config saved seconds until_ := by
  obtain ⟨blank, empty, config, restart⟩ := @restarted_eq limiter saved later running write
  have exact_ : ∀ known ∈ limiter.attempts, ∀ until_, known.2.lockedUntil = some until_ →
      (left (filedAs limiter.config saved known.1 until_) later = (until_ - later.now) / nanos ↔
        Reckoned limiter.config saved seconds until_) := fun known member until_ held =>
    left_filedAs passed range.unix range.length (range.locks known member until_ held) known.1
  constructor
  · intro survive known member until_ held on_ untrusted
    obtain ⟨after, restored, each⟩ := survive
    rw [restart] at restored
    have kept := restored_lock empty config distinct restored member held on_ untrusted
    have seconds_ := (each known member until_ held on_ untrusted).seconds
    rw [secondsLeft, kept] at seconds_
    apply (exact_ known member until_ held).mp
    rw [← seconds_]
    split
    · rename_i until' found
      split at found
      · cases found
      · cases found
        rw [Nat.add_sub_cancel_left, Nat.mul_div_cancel _ nanos_pos]
    · rename_i found
      split at found
      · assumption
      · cases found
  · intro reckoned
    have returns : ∃ after, blank.restoreAll later (limiter.snapshot saved) = some after := by
      apply restoreAll_returns
      intro entry filed untrusted remaining
      obtain ⟨known, member, until_, held, on_, rfl⟩ := mem_snapshot.mp filed
      rw [config] at untrusted
      have same := (exact_ known member until_ held).mpr (reckoned known member until_ held on_ untrusted)
      have bound := range.locks known member until_ held
      rw [same] at remaining ⊢
      have end_ : later.now + (until_ - later.now) / nanos * nanos ≤ until_ := by
        have whole := Nat.div_mul_le_self (until_ - later.now) nanos
        have some_ : 0 < (until_ - later.now) / nanos * nanos := Nat.mul_pos (Nat.pos_of_ne_zero remaining) nanos_pos
        omega
      have sum : later.now / nanos + (until_ - later.now) / nanos ≤ until_ / nanos := by
        rw [← Nat.add_mul_div_right _ _ nanos_pos]
        exact Nat.div_le_div_right end_
      rw [addSeconds, if_pos (by omega)]
      rfl
    obtain ⟨after, restored⟩ := returns
    refine ⟨after, restart.trans restored, ?_⟩
    intro known member until_ held on_ untrusted
    exact restored_survives ((exact_ known member until_ held).mpr (reckoned known member until_ held on_ untrusted))
      (restored_lock empty config distinct restored member held on_ untrusted)
      ((lock_known distinct member).trans held) ((restoreAll_config restored).trans config) untrusted

end Limiter

def weekLong (lockoutSeconds : Nat) : Limiter := { freshLimiter with
  config := { LoginLockoutConfig.default with lockoutSeconds }
  attempts := [("192.0.2.7", ⟨[], some (604800 * nanos), ""⟩)] }

theorem weekLong_known {lockoutSeconds : Nat} {known : String × AttemptRecord}
    (member : known ∈ (weekLong lockoutSeconds).attempts) : known = ("192.0.2.7", ⟨[], some (604800 * nanos), ""⟩) :=
  List.mem_singleton.mp member

theorem lockouts_survive_iff_sample : (weekLong 604800).LockoutsSurvive (atSecond 60) (atSecond 90) := by
  refine (@Limiter.lockouts_survive_iff (weekLong 604800) _ _ 30 rfl (by decide) ⟨by decide, by decide, ?_⟩ rfl
    ⟨by decide, by decide⟩).mpr ?_
  · intro known member until_ held
    rw [weekLong_known member] at held
    cases held
    decide
  · intro known member until_ held on_ untrusted
    rw [weekLong_known member] at held
    cases held
    exact ⟨by decide, by decide⟩

/-- Where that is 48 hours, half a minute's restart shortens it to them. -/
theorem weekLong_shortened : ¬(weekLong 172800).LockoutsSurvive (atSecond 60) (atSecond 90) := by
  intro survive
  obtain ⟨after, restored, each⟩ := survive
  have seconds := (each _ List.mem_cons_self (604800 * nanos) rfl (by decide) (by decide +kernel)).seconds
  have found : (((weekLong 172800).restarted (atSecond 60) (atSecond 90)).map fun state =>
      state.secondsLeft (atSecond 90).now "192.0.2.7") = some 172770 := by decide +kernel
  rw [restored, Option.map_some, Option.some.injEq] at found
  exact absurd (found.symm.trans seconds) (by decide)

end Auth
