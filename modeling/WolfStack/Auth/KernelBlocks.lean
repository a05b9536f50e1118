import WolfStack.Auth.Lockouts

/-! What lifts a kernel block. While the process runs it is a record with a lock, while
it does not it is an entry of the lockout file; both may go without their block. -/

namespace Auth
namespace Limiter

variable {limiter : Limiter} {moment : Moment}

def Guarded (limiter : Limiter) (target : IpAddr) : Prop :=
  ∃ known ∈ limiter.attempts, canonical known.1 = some target ∧ known.2.lockedUntil ≠ none

def Filed (limiter : Limiter) (target : IpAddr) : Prop :=
  ∃ entries, limiter.file = some entries ∧ ∃ entry ∈ entries, canonical entry.ip = some target

/-- Every address the kernel drops has a record with a lock, or an entry in the file
while the process is down. -/
def NoOrphan (limiter : Limiter) : Prop :=
  ∀ target ∈ limiter.kernel, if limiter.running then limiter.Guarded target else limiter.Filed target

def Fresh (limiter : Limiter) (target : IpAddr) : Prop :=
  ∃ known ∈ limiter.attempts, canonical known.1 = some target ∧ ∃ until_, known.2.lockedUntil = some until_ ∧
    limiter.writtenAt < until_

/-- Blocks can be removed and the file can be written; a login clears a lock only when no
kernel block stands or another record of the address has a lock; the process stops only
when no blocked address's lock had run out at the last write of the file. -/
structure Careful (limiter : Limiter) (moment : Moment) (call : Call) : Prop where
  stuck : moment.stuck = []
  write : moment.write = .done
  clear : ∀ ip, call = .clearWith ip → limiter.lock ip ≠ none → ∀ target ∈ limiter.kernel, canonical ip = some target →
    ∃ known ∈ limiter.attempts, known.1 ≠ ip ∧ canonical known.1 = some target ∧ known.2.lockedUntil ≠ none
  stop : call = .stop → ∀ target ∈ limiter.kernel, limiter.Fresh target

/-- Locks are on addresses that are not trusted, those that had not run out at the last
write are in the file, and whatever the kernel drops has a lock. -/
structure Tracked (limiter : Limiter) : Prop where
  distinct : (limiter.attempts.map fun known => known.1).Nodup
  guarded : ∀ target ∈ limiter.kernel, limiter.Guarded target
  untrusted : ∀ known ∈ limiter.attempts, known.2.lockedUntil ≠ none → limiter.config.isTrusted known.1 = false
  filed : ∀ known ∈ limiter.attempts, ∀ until_, known.2.lockedUntil = some until_ → limiter.writtenAt < until_ →
    ∃ entries, limiter.file = some entries ∧ ∃ entry ∈ entries, entry.ip = known.1

/-- While the process is down, the file has an entry for whatever the kernel drops, and
one that a start does not pass over. -/
def Recorded (limiter : Limiter) : Prop :=
  ∀ target ∈ limiter.kernel, ∃ entries, limiter.file = some entries ∧ ∃ entry ∈ entries,
    canonical entry.ip = some target ∧ limiter.config.isTrusted entry.ip = false

def Sound (limiter : Limiter) : Prop :=
  if limiter.running then limiter.Tracked else limiter.Recorded ∧ limiter.attempts = []

theorem Sound.noOrphan (sound : limiter.Sound) : limiter.NoOrphan := by
  intro target blocked
  rw [Sound] at sound
  split at sound
  · rename_i running
    rw [if_pos running]
    exact sound.guarded target blocked
  · rename_i down
    rw [if_neg down]
    obtain ⟨entries, file, entry, member, same, -⟩ := sound.1 target blocked
    exact ⟨entries, file, entry, member, same⟩

theorem mem_put {ip : String} {rec : AttemptRecord} {known : String × AttemptRecord} :
    known ∈ (limiter.put ip rec).attempts ↔ known = (ip, rec) ∨ (known ∈ limiter.attempts ∧ known.1 ≠ ip) := by
  simp [put, remove]

theorem mem_remove {ip : String} {known : String × AttemptRecord} :
    known ∈ (limiter.remove ip).attempts ↔ known ∈ limiter.attempts ∧ known.1 ≠ ip := by
  simp [remove]

theorem record_of_mem {attempts : List (String × AttemptRecord)} (distinct : (attempts.map fun known => known.1).Nodup)
    {known : String × AttemptRecord} (member : known ∈ attempts) : attempts.lookup known.1 = some known.2 := by
  induction attempts with
  | nil => cases member
  | cons first rest ih =>
    obtain ⟨fresh, distinct⟩ := List.nodup_cons.mp distinct
    rcases List.mem_cons.mp member with rfl | member
    · exact List.lookup_cons_self
    · have other : (known.1 == first.1) = false := by
        rw [beq_eq_false_iff_ne]
        exact fun same => fresh (List.mem_map.mpr ⟨known, member, same⟩)
      rw [List.lookup_cons, other]
      exact ih distinct member

theorem mem_of_lock {ip : String} {until_ : Nat} (held : limiter.lock ip = some until_) :
    ∃ rec, (ip, rec) ∈ limiter.attempts ∧ rec.lockedUntil = some until_ := by
  cases found : limiter.record ip with
  | none =>
    rw [lock, found] at held
    cases held
  | some rec =>
    rw [lock, found] at held
    refine ⟨rec, ?_, held⟩
    obtain ⟨front, back, split, -⟩ := List.lookup_eq_some_iff.mp found
    rw [split]
    exact List.mem_append_right _ List.mem_cons_self

theorem Tracked.lock_eq (tracked : limiter.Tracked) {known : String × AttemptRecord} (member : known ∈ limiter.attempts) :
    limiter.lock known.1 = known.2.lockedUntil := by
  rw [lock, record, record_of_mem tracked.distinct member]
  rfl

theorem distinct_put (distinct : (limiter.attempts.map fun known => known.1).Nodup) (ip : String) (rec : AttemptRecord) :
    ((limiter.put ip rec).attempts.map fun known => known.1).Nodup := by
  rw [put, List.map_cons, List.nodup_cons]
  constructor
  · intro member
    obtain ⟨known, inside, same⟩ := List.mem_map.mp member
    exact (mem_remove.mp inside).2 same
  · exact distinct.sublist (List.filter_sublist.map _)

theorem mem_kernelBlockIp {ip : String} {target : IpAddr} (blocked : target ∈ (limiter.kernelBlockIp moment ip).kernel) :
    canonical ip = some target ∨ target ∈ limiter.kernel := by
  rw [kernelBlockIp] at blocked
  split at blocked
  · rename_i own same
    split at blocked
    · exact .inr blocked
    · rcases List.mem_cons.mp blocked with rfl | before
      · exact .inl same
      · exact .inr (List.mem_of_mem_filter before)
  · exact .inr blocked

theorem mem_kernelUnblockIp {ip : String} {target : IpAddr} (stuck : moment.stuck = []) :
    target ∈ (limiter.kernelUnblockIp moment ip).kernel ↔ target ∈ limiter.kernel ∧ canonical ip ≠ some target := by
  rw [kernelUnblockIp]
  cases same : canonical ip with
  | none => simp
  | some own =>
    simp only [stuck, List.not_mem_nil, if_false, List.mem_filter, decide_not, Bool.not_eq_true',
      decide_eq_false_iff_not, ne_eq, Option.some.injEq]
    exact and_congr_right fun _ => not_congr eq_comm

theorem kernelUnblockIp_same (limiter : Limiter) (moment : Moment) (ip : String) :
    ∃ kernel, limiter.kernelUnblockIp moment ip = { limiter with kernel } := by
  rw [kernelUnblockIp]
  split
  · split
    · exact ⟨limiter.kernel, rfl⟩
    · exact ⟨_, rfl⟩
  · exact ⟨limiter.kernel, rfl⟩

theorem kernelBlockIp_same (limiter : Limiter) (moment : Moment) (ip : String) :
    ∃ kernel, limiter.kernelBlockIp moment ip = { limiter with kernel } := by
  rw [kernelBlockIp]
  split
  · split
    · exact ⟨limiter.kernel, rfl⟩
    · exact ⟨_, rfl⟩
  · exact ⟨limiter.kernel, rfl⟩

theorem mem_unblockAll {target : IpAddr} (stuck : moment.stuck = []) (ips : List String) :
    target ∈ (limiter.unblockAll moment ips).kernel ↔ target ∈ limiter.kernel ∧ ∀ ip ∈ ips, canonical ip ≠ some target := by
  induction ips generalizing limiter with
  | nil => simp [unblockAll]
  | cons ip rest ih => rw [unblockAll, ih, mem_kernelUnblockIp stuck, List.forall_mem_cons, and_assoc]

theorem unblockAll_same (limiter : Limiter) (moment : Moment) (ips : List String) :
    ∃ kernel, limiter.unblockAll moment ips = { limiter with kernel } := by
  induction ips generalizing limiter with
  | nil => exact ⟨limiter.kernel, rfl⟩
  | cons ip rest ih =>
    obtain ⟨kernel, same⟩ := ih (limiter.kernelUnblockIp moment ip)
    obtain ⟨before, own⟩ := kernelUnblockIp_same limiter moment ip
    rw [own] at same
    exact ⟨kernel, by rw [unblockAll, own, same]⟩

theorem persistLockouts_filed (limiter : Limiter) (write : moment.write = .done) :
    ∀ known ∈ (limiter.persistLockouts moment).attempts, ∀ until_, known.2.lockedUntil = some until_ →
      (limiter.persistLockouts moment).writtenAt < until_ →
      ∃ entries, (limiter.persistLockouts moment).file = some entries ∧ ∃ entry ∈ entries, entry.ip = known.1 := by
  intro known member until_ held later
  simp only [persistLockouts, write] at member later ⊢
  have entry : persisted limiter.config moment known = some ⟨known.1,
      moment.unix - (limiter.config.lockoutSeconds - (until_ - moment.savedAt) / nanos), limiter.config.lockoutSeconds⟩ := by
    simp only [persisted, held]
    exact if_pos later
  exact ⟨_, rfl, _, List.mem_filterMap.mpr ⟨known, member, entry⟩, rfl⟩

theorem persistLockouts_same (limiter : Limiter) (write : moment.write = .done) :
    ∃ file, limiter.persistLockouts moment = { limiter with file, writtenAt := moment.savedAt } := by
  simp only [persistLockouts, write]
  exact ⟨_, rfl⟩

theorem Tracked.noted {ip : String} {rec : AttemptRecord} (tracked : limiter.Tracked)
    (untrusted : limiter.config.isTrusted ip = false) (same : rec.lockedUntil = limiter.lock ip) :
    (limiter.put ip rec).Tracked where
  distinct := distinct_put tracked.distinct ip rec
  guarded := by
    intro target blocked
    obtain ⟨known, member, own, held⟩ := tracked.guarded target blocked
    by_cases replaced : known.1 = ip
    · refine ⟨(ip, rec), mem_put.mpr (.inl rfl), replaced ▸ own, ?_⟩
      rw [same, ← replaced, tracked.lock_eq member]
      exact held
    · exact ⟨known, mem_put.mpr (.inr ⟨member, replaced⟩), own, held⟩
  untrusted := by
    intro known member held
    rcases mem_put.mp member with rfl | ⟨member, -⟩
    · exact untrusted
    · exact tracked.untrusted known member held
  filed := by
    intro known member until_ held later
    rcases mem_put.mp member with rfl | ⟨member, -⟩
    · obtain ⟨before, inside, locked⟩ := mem_of_lock (same.symm.trans held)
      exact tracked.filed (ip, before) inside until_ locked later
    · exact tracked.filed known member until_ held later

theorem Tracked.locked {ip : String} {rec : AttemptRecord} (tracked : limiter.Tracked) (write : moment.write = .done)
    (untrusted : limiter.config.isTrusted ip = false) (lock : rec.lockedUntil ≠ none) :
    (limiter.lockOut moment ip rec).Tracked := by
  obtain ⟨kernel, blocks⟩ := kernelBlockIp_same (limiter.put ip rec) moment ip
  obtain ⟨file, saves⟩ := persistLockouts_same ((limiter.put ip rec).kernelBlockIp moment ip) write
  have after : limiter.lockOut moment ip rec = { limiter.put ip rec with kernel, file, writtenAt := moment.savedAt } := by
    rw [lockOut, saves, blocks]
  refine ⟨?_, ?_, ?_, persistLockouts_filed _ write⟩
  · rw [after]
    exact distinct_put tracked.distinct ip rec
  · intro target blocked
    rw [lockOut, saves] at blocked
    rw [after]
    rcases mem_kernelBlockIp blocked with own | before
    · exact ⟨(ip, rec), mem_put.mpr (.inl rfl), own, lock⟩
    · obtain ⟨known, member, own, held⟩ := tracked.guarded target before
      by_cases replaced : known.1 = ip
      · exact ⟨(ip, rec), mem_put.mpr (.inl rfl), replaced ▸ own, lock⟩
      · exact ⟨known, mem_put.mpr (.inr ⟨member, replaced⟩), own, held⟩
  · rw [after]
    intro known member held
    rcases mem_put.mp member with rfl | ⟨member, -⟩
    · exact untrusted
    · exact tracked.untrusted known member held

theorem Tracked.cleared {ip : String} (tracked : limiter.Tracked) (careful : limiter.Careful moment (.clearWith ip)) :
    (limiter.clearWith ip).Tracked where
  distinct := tracked.distinct.sublist (List.filter_sublist.map _)
  guarded := by
    intro target blocked
    obtain ⟨known, member, own, held⟩ := tracked.guarded target blocked
    by_cases removed : known.1 = ip
    · subst removed
      have locked : limiter.lock known.1 ≠ none := by rwa [tracked.lock_eq member]
      obtain ⟨other, there, differs, same, still⟩ := careful.clear known.1 rfl locked target blocked own
      exact ⟨other, mem_remove.mpr ⟨there, differs⟩, same, still⟩
    · exact ⟨known, mem_remove.mpr ⟨member, removed⟩, own, held⟩
  untrusted := fun known member held => tracked.untrusted known (mem_remove.mp member).1 held
  filed := fun known member until_ held later => tracked.filed known (mem_remove.mp member).1 until_ held later

theorem Tracked.unblocked {ip : String} (tracked : limiter.Tracked) (stuck : moment.stuck = [])
    (write : moment.write = .done) : (limiter.unblockLocal moment ip).Tracked := by
  obtain ⟨kernel, unblocks⟩ := kernelUnblockIp_same (limiter.remove ip) moment ip
  obtain ⟨file, saves⟩ := persistLockouts_same ((limiter.remove ip).kernelUnblockIp moment ip) write
  have after : limiter.unblockLocal moment ip = { limiter.remove ip with kernel, file, writtenAt := moment.savedAt } := by
    rw [unblockLocal, saves, unblocks]
  refine ⟨?_, ?_, ?_, persistLockouts_filed _ write⟩
  · rw [after]
    exact tracked.distinct.sublist (List.filter_sublist.map _)
  · intro target blocked
    rw [unblockLocal, saves] at blocked
    rw [after]
    obtain ⟨before, other⟩ := (mem_kernelUnblockIp stuck).mp blocked
    obtain ⟨known, member, own, held⟩ := tracked.guarded target before
    refine ⟨known, mem_remove.mpr ⟨member, ?_⟩, own, held⟩
    rintro rfl
    exact other own
  · rw [after]
    exact fun known member held => tracked.untrusted known (mem_remove.mp member).1 held

theorem mem_cleaned {known : String × AttemptRecord} :
    known ∈ limiter.attempts.filterMap (limiter.cleaned moment) →
      ∃ before ∈ limiter.attempts, before.1 = known.1 ∧ before.2.lockedUntil = known.2.lockedUntil := by
  intro member
  obtain ⟨before, inside, kept⟩ := List.mem_filterMap.mp member
  simp only [Limiter.cleaned] at kept
  split at kept
  · cases kept
    exact ⟨before, inside, rfl, rfl⟩
  · cases kept

theorem cleaned_of_locked {known : String × AttemptRecord} (member : known ∈ limiter.attempts)
    (held : known.2.lockedUntil ≠ none) (alive : expired moment known = false) :
    ∃ kept ∈ limiter.attempts.filterMap (limiter.cleaned moment), kept.1 = known.1 ∧
      kept.2.lockedUntil = known.2.lockedUntil := by
  obtain ⟨until_, set⟩ := Option.ne_none_iff_exists'.mp held
  have still : known.2.lockedUntil.any (· > moment.now) = true := by
    rw [expired, set, Option.any_some, decide_eq_false_iff_not] at alive
    rw [set, Option.any_some, decide_eq_true_eq]
    exact Nat.lt_of_not_le alive
  refine ⟨(known.1, { known.2 with failures := limiter.recent moment known.2.failures }), ?_, rfl, rfl⟩
  rw [List.mem_filterMap]
  refine ⟨known, member, ?_⟩
  simp only [Limiter.cleaned]
  exact if_pos (.inr still)

theorem cleaned_keys (attempts : List (String × AttemptRecord)) :
    ((attempts.filterMap (limiter.cleaned moment)).map fun known => known.1).Sublist (attempts.map fun known => known.1) := by
  induction attempts with
  | nil => exact List.Sublist.refl _
  | cons first rest ih =>
    rw [List.filterMap_cons, List.map_cons]
    split
    · exact ih.cons _
    · rename_i kept same
      simp only [Limiter.cleaned] at same
      split at same
      · cases same
        exact ih.cons_cons _
      · cases same

theorem Tracked.cleaned (tracked : limiter.Tracked) (stuck : moment.stuck = []) (write : moment.write = .done) :
    (limiter.cleanup moment).Tracked := by
  obtain ⟨kernel, lifts⟩ := unblockAll_same { limiter with attempts := limiter.attempts.filterMap (limiter.cleaned moment) }
    moment ((limiter.attempts.filter (expired moment)).map fun known => known.1)
  have guards : ∀ target ∈ ({ limiter with attempts := limiter.attempts.filterMap (limiter.cleaned moment) } :
      Limiter).unblockAll moment ((limiter.attempts.filter (expired moment)).map fun known => known.1) |>.kernel,
      ∃ kept ∈ limiter.attempts.filterMap (limiter.cleaned moment), canonical kept.1 = some target ∧
        kept.2.lockedUntil ≠ none := by
    intro target blocked
    obtain ⟨before, others⟩ := (mem_unblockAll stuck _).mp blocked
    obtain ⟨known, member, own, held⟩ := tracked.guarded target before
    have alive : expired moment known = false := by
      rw [← Bool.not_eq_true]
      intro kept
      exact others known.1 (List.mem_map_of_mem (List.mem_filter.mpr ⟨member, kept⟩)) own
    obtain ⟨kept, inside, name, lock⟩ := cleaned_of_locked member held alive
    exact ⟨kept, inside, name ▸ own, lock ▸ held⟩
  have plain : ({ limiter with attempts := limiter.attempts.filterMap (limiter.cleaned moment), kernel } : Limiter).Tracked := by
    refine ⟨tracked.distinct.sublist (cleaned_keys limiter.attempts), ?_, ?_, ?_⟩
    · intro target blocked
      rw [lifts] at guards
      exact guards target blocked
    · intro known member held
      obtain ⟨before, inside, name, lock⟩ := mem_cleaned member
      exact name ▸ tracked.untrusted before inside (lock ▸ held)
    · intro known member until_ held later
      obtain ⟨before, inside, name, lock⟩ := mem_cleaned member
      obtain ⟨entries, file, entry, listed, same⟩ := tracked.filed before inside until_ (lock.trans held) later
      exact ⟨entries, file, entry, listed, same.trans name⟩
  simp only [cleanup, lifts]
  split
  · exact plain
  · obtain ⟨file, saves⟩ := persistLockouts_same
      ({ limiter with attempts := limiter.attempts.filterMap (limiter.cleaned moment), kernel } : Limiter) write
    have filed := persistLockouts_filed
      ({ limiter with attempts := limiter.attempts.filterMap (limiter.cleaned moment), kernel } : Limiter) write
    rw [saves] at filed ⊢
    exact ⟨plain.distinct, plain.guarded, plain.untrusted, filed⟩

theorem Tracked.stopped (tracked : limiter.Tracked) (careful : limiter.Careful moment .stop) :
    ({ limiter with running := false, attempts := [] } : Limiter).Recorded := by
  intro target blocked
  obtain ⟨known, member, own, until_, held, later⟩ := careful.stop rfl target blocked
  obtain ⟨entries, file, entry, listed, same⟩ := tracked.filed known member until_ held later
  have untrusted := tracked.untrusted known member (by simp [held])
  exact ⟨entries, file, entry, listed, same ▸ own, same ▸ untrusted⟩

/-- While the file's entries are restored, whatever the kernel drops has a lock or an
entry that is still to come, and each record comes from an entry. -/
structure Restoring (limiter : Limiter) (rest : List PersistedLockout) : Prop where
  distinct : (limiter.attempts.map fun known => known.1).Nodup
  guarded : ∀ target ∈ limiter.kernel, limiter.Guarded target ∨ ∃ entry ∈ rest, canonical entry.ip = some target ∧
    limiter.config.isTrusted entry.ip = false
  untrusted : ∀ known ∈ limiter.attempts, known.2.lockedUntil ≠ none → limiter.config.isTrusted known.1 = false
  filed : ∀ known ∈ limiter.attempts, ∃ entries, limiter.file = some entries ∧ ∃ entry ∈ entries, entry.ip = known.1

theorem mem_enforce {ip : String} {target : IpAddr} (stuck : moment.stuck = [])
    (blocked : target ∈ (limiter.enforce moment ip).kernel) : canonical ip = some target ∨ target ∈ limiter.kernel := by
  rw [enforce] at blocked
  split at blocked
  · exact .inr ((mem_kernelUnblockIp stuck).mp blocked).1
  · exact mem_kernelBlockIp blocked

theorem enforce_same (limiter : Limiter) (moment : Moment) (ip : String) :
    ∃ kernel, limiter.enforce moment ip = { limiter with kernel } := by
  rw [enforce]
  split
  · exact kernelUnblockIp_same limiter moment ip
  · exact kernelBlockIp_same limiter moment ip

theorem Restoring.entry {entry : PersistedLockout} {rest : List PersistedLockout} {after : Limiter}
    (restoring : limiter.Restoring (entry :: rest)) (stuck : moment.stuck = [])
    (listed : ∃ entries, limiter.file = some entries ∧ entry ∈ entries)
    (restored : limiter.restoreEntry moment entry = some after) :
    after.Restoring rest ∧ after.file = limiter.file ∧ after.config = limiter.config ∧
      after.running = limiter.running := by
  rw [restoreEntry] at restored
  cases trusted : limiter.config.isTrusted entry.ip with
  | true =>
    simp only [trusted, if_true, Option.some.injEq] at restored
    subst restored
    refine ⟨⟨restoring.distinct, ?_, restoring.untrusted, restoring.filed⟩, rfl, rfl, rfl⟩
    intro target blocked
    rcases restoring.guarded target blocked with guarded | ⟨other, member, own, untrusted⟩
    · exact .inl guarded
    · rcases List.mem_cons.mp member with rfl | member
      · rw [trusted] at untrusted
        cases untrusted
      · exact .inr ⟨other, member, own, untrusted⟩
  | false =>
    simp only [trusted, Bool.false_eq_true, if_false] at restored
    split at restored
    · cases restored
      obtain ⟨kernel, same⟩ := kernelUnblockIp_same limiter moment entry.ip
      have lifted : ∀ target ∈ (limiter.kernelUnblockIp moment entry.ip).kernel, limiter.Guarded target ∨
          ∃ other ∈ rest, canonical other.ip = some target ∧ limiter.config.isTrusted other.ip = false := by
        intro target blocked
        obtain ⟨before, apart⟩ := (mem_kernelUnblockIp stuck).mp blocked
        rcases restoring.guarded target before with guarded | ⟨other, member, own, untrusted⟩
        · exact .inl guarded
        · rcases List.mem_cons.mp member with rfl | member
          · exact absurd own apart
          · exact .inr ⟨other, member, own, untrusted⟩
      rw [same] at lifted ⊢
      exact ⟨⟨restoring.distinct, lifted, restoring.untrusted, restoring.filed⟩, rfl, rfl, rfl⟩
    · obtain ⟨until_, -, rfl⟩ := Option.map_eq_some_iff.mp restored
      obtain ⟨kernel, same⟩ := enforce_same limiter moment entry.ip
      have enforced : ∀ target ∈ (limiter.enforce moment entry.ip).kernel,
          canonical entry.ip = some target ∨ target ∈ limiter.kernel := fun target => mem_enforce stuck
      rw [same] at enforced ⊢
      refine ⟨⟨distinct_put restoring.distinct entry.ip _, ?_, ?_, ?_⟩, rfl, rfl, rfl⟩
      · intro target blocked
        have own_lock : canonical entry.ip = some target → (({ limiter with kernel } : Limiter).put entry.ip
            { (limiter.record entry.ip).getD .default with lockedUntil := some until_ }).Guarded target :=
          fun own => ⟨_, mem_put.mpr (.inl rfl), own, Option.some_ne_none _⟩
        rcases enforced target blocked with own | before
        · exact .inl (own_lock own)
        · rcases restoring.guarded target before with ⟨known, member, own, held⟩ | ⟨other, member, own, untrusted⟩
          · by_cases replaced : known.1 = entry.ip
            · exact .inl (own_lock (replaced ▸ own))
            · exact .inl ⟨known, mem_put.mpr (.inr ⟨member, replaced⟩), own, held⟩
          · rcases List.mem_cons.mp member with rfl | member
            · exact .inl (own_lock own)
            · exact .inr ⟨other, member, own, untrusted⟩
      · intro known member held
        rcases mem_put.mp member with rfl | ⟨member, -⟩
        · exact trusted
        · exact restoring.untrusted known member held
      · intro known member
        rcases mem_put.mp member with rfl | ⟨member, -⟩
        · obtain ⟨entries, file, inside⟩ := listed
          exact ⟨entries, file, entry, inside, rfl⟩
        · exact restoring.filed known member

theorem Restoring.all {rest : List PersistedLockout} {after : Limiter} (restoring : limiter.Restoring rest)
    (stuck : moment.stuck = []) (listed : ∀ entry ∈ rest, ∃ entries, limiter.file = some entries ∧ entry ∈ entries)
    (restored : limiter.restoreAll moment rest = some after) :
    after.Restoring [] ∧ after.running = limiter.running := by
  induction rest generalizing limiter with
  | nil =>
    cases restored
    exact ⟨restoring, rfl⟩
  | cons entry rest ih =>
    obtain ⟨next, first, later⟩ := Option.bind_eq_some_iff.mp restored
    obtain ⟨onward, file, config, running⟩ := restoring.entry stuck (listed entry List.mem_cons_self) first
    obtain ⟨done, same⟩ := ih onward
      (fun other member => file ▸ listed other (List.mem_cons_of_mem entry member)) later
    exact ⟨done, same.trans running⟩

theorem Recorded.started {after : Limiter} (recorded : limiter.Recorded) (down : limiter.attempts = [])
    (stuck : moment.stuck = [])
    (restored : ({ limiter with running := true } : Limiter).restorePersistedLockouts moment = some after) :
    after.Tracked ∧ after.running = true := by
  have begin (entries : List PersistedLockout) (file : limiter.file = some entries ∨ limiter.kernel = []) :
      ({ limiter with running := true } : Limiter).Restoring entries := by
    refine ⟨by simp [down], fun target blocked => .inr ?_, by simp [down], by simp [down]⟩
    obtain ⟨listed, same, entry, member, own, untrusted⟩ := recorded target blocked
    rcases file with file | empty
    · rw [file, Option.some.injEq] at same
      exact ⟨entry, same ▸ member, own, untrusted⟩
    · rw [empty] at blocked
      cases blocked
  have finish (done : after.Restoring []) : after.Tracked := by
    refine ⟨done.distinct, fun target blocked => ?_, done.untrusted, fun known member _ _ _ => done.filed known member⟩
    rcases done.guarded target blocked with guarded | ⟨entry, member, -⟩
    · exact guarded
    · cases member
  rw [restorePersistedLockouts] at restored
  split at restored
  · rename_i entries file
    obtain ⟨done, running⟩ := (begin entries (.inl file)).all stuck (fun entry member => ⟨entries, file, member⟩) restored
    exact ⟨finish done, running⟩
  · rename_i file
    cases restored
    have empty : limiter.kernel = [] := by
      rw [List.eq_nil_iff_forall_not_mem]
      intro target blocked
      obtain ⟨entries, same, -⟩ := recorded target blocked
      rw [show limiter.file = none from file] at same
      cases same
    exact ⟨finish (begin [] (.inr empty)), rfl⟩

theorem Sound.step {call : Call} {after : Limiter} (sound : limiter.Sound) (careful : limiter.Careful moment call)
    (stepped : limiter.step moment call = some after) : after.Sound := by
  rcases step_cases stepped with ⟨running, outcome⟩ | ⟨rfl, down, restored⟩
  · have tracked : limiter.Tracked := by
      rw [Sound, if_pos running] at sound
      exact sound
    have still (kept : after.Tracked) (on : after.running = limiter.running) : after.Sound := by
      rw [Sound, if_pos (on.trans running)]
      exact kept
    cases outcome with
    | idle => exact sound
    | noted ip rec untrusted lock => exact still (tracked.noted untrusted lock) rfl
    | locked ip rec untrusted lock =>
      refine still (tracked.locked careful.write untrusted lock) ?_
      obtain ⟨kernel, blocks⟩ := kernelBlockIp_same (limiter.put ip rec) moment ip
      obtain ⟨file, saves⟩ := persistLockouts_same ((limiter.put ip rec).kernelBlockIp moment ip) careful.write
      rw [lockOut, saves, blocks]
      rfl
    | cleared ip => exact still (tracked.cleared careful) rfl
    | unblocked ip =>
      refine still (tracked.unblocked careful.stuck careful.write) ?_
      obtain ⟨kernel, unblocks⟩ := kernelUnblockIp_same (limiter.remove ip) moment ip
      obtain ⟨file, saves⟩ := persistLockouts_same ((limiter.remove ip).kernelUnblockIp moment ip) careful.write
      rw [unblockLocal, saves, unblocks]
      rfl
    | cleaned =>
      refine still (tracked.cleaned careful.stuck careful.write) ?_
      obtain ⟨kernel, lifts⟩ := unblockAll_same
        { limiter with attempts := limiter.attempts.filterMap (limiter.cleaned moment) } moment
        ((limiter.attempts.filter (expired moment)).map fun known => known.1)
      simp only [cleanup, lifts]
      split
      · rfl
      · obtain ⟨file, saves⟩ := persistLockouts_same
          ({ limiter with attempts := limiter.attempts.filterMap (limiter.cleaned moment), kernel } : Limiter) careful.write
        rw [saves]
    | stopped => exact ⟨tracked.stopped careful, rfl⟩
  · rw [Sound, if_neg (by simp [down])] at sound
    obtain ⟨tracked, running⟩ := sound.1.started sound.2 careful.stuck restored
    rw [Sound, if_pos running]
    exact tracked

theorem Sound.run {calls : List (Moment × Call)} {after : Limiter} (sound : limiter.Sound)
    (careful : Throughout Careful limiter calls) (ran : limiter.run calls = some after) : after.Sound := by
  induction calls generalizing limiter with
  | nil =>
    cases ran
    exact sound
  | cons timed rest ih =>
    obtain ⟨next, stepped, later⟩ := Option.bind_eq_some_iff.mp ran
    exact ih (sound.step careful.1 stepped) (careful.2 next stepped) later

structure Begins (limiter : Limiter) : Prop where
  running : limiter.running = true
  attempts : limiter.attempts = []
  kernel : limiter.kernel = []

theorem Begins.sound (begins : limiter.Begins) : limiter.Sound := by
  rw [Sound, if_pos begins.running]
  exact ⟨by simp [begins.attempts], by simp [begins.kernel], by simp [begins.attempts], by simp [begins.attempts]⟩

/-- In a run whose calls are all careful no kernel block is ever orphaned. -/
theorem no_orphan (start after : Limiter) (calls : List (Moment × Call)) (begins : start.Begins)
    (careful : Throughout Careful start calls) (ran : start.run calls = some after) : after.NoOrphan :=
  (begins.sound.run careful ran).noOrphan

end Limiter

/-- What a careful call asks of the state before it. -/
def Limiter.CarefulAt (limiter : Limiter) : Call → Prop
  | .clearWith ip => limiter.lock ip ≠ none → ∀ target ∈ limiter.kernel, canonical ip = some target →
      ∃ known ∈ limiter.attempts, known.1 ≠ ip ∧ canonical known.1 = some target ∧ known.2.lockedUntil ≠ none
  | .stop => ∀ target ∈ limiter.kernel, ∃ known ∈ limiter.attempts, canonical known.1 = some target ∧
      ∃ until_ ∈ known.2.lockedUntil, limiter.writtenAt < until_
  | _ => True

instance (limiter : Limiter) : (call : Call) → Decidable (limiter.CarefulAt call)
  | .clearWith ip => inferInstanceAs (Decidable (limiter.lock ip ≠ none → ∀ target ∈ limiter.kernel, canonical ip = some target →
      ∃ known ∈ limiter.attempts, known.1 ≠ ip ∧ canonical known.1 = some target ∧ known.2.lockedUntil ≠ none))
  | .stop => inferInstanceAs (Decidable (∀ target ∈ limiter.kernel, ∃ known ∈ limiter.attempts, canonical known.1 = some target ∧
      ∃ until_ ∈ known.2.lockedUntil, limiter.writtenAt < until_))
  | .recordFailureWith _ _ | .forceLockout _ _ | .addPropagatedLockout _ _ | .unblockLocal _ | .cleanup | .start => isTrue trivial

instance (limiter : Limiter) (moment : Moment) (call : Call) : Decidable (limiter.Careful moment call) :=
  decidable_of_iff (moment.stuck = [] ∧ moment.write = .done ∧ limiter.CarefulAt call) <| by
    constructor
    · rintro ⟨stuck, write, at_⟩
      refine ⟨stuck, write, ?_, ?_⟩
      · rintro ip rfl
        exact at_
      · rintro rfl
        exact at_
    · intro careful
      refine ⟨careful.stuck, careful.write, ?_⟩
      cases call with
      | clearWith ip => exact careful.clear ip rfl
      | stop => exact careful.stop rfl
      | _ => trivial

/-- An address is locked out by its failures, one by an operator and one by a peer's word. One lock
runs out and is lifted, one is taken back, and the third is restored after a restart. -/
def threeLocks : List (Moment × Call) :=
  [failureAt 0, failureAt 1, failureAt 2, failureAt 3, failureAt 4, (atSecond 10, .forceLockout "198.51.100.9" "auto"),
    (atSecond 20, .addPropagatedLockout "203.0.113.5" 600), (atSecond 30, .clearWith "203.0.113.77"), (atSecond 700, .cleanup),
    (atSecond 800, .unblockLocal "198.51.100.9"), (atSecond 900, .stop), (atSecond 1000, .start)]

theorem no_orphan_sample : ∃ after, freshLimiter.run threeLocks = some after ∧ after.kernel = [.v4 0xC0000207#32] ∧ after.NoOrphan := by
  have careful : Throughout Limiter.Careful freshLimiter threeLocks := by decide +kernel
  have blocked : (freshLimiter.run threeLocks).map (·.kernel) = some [.v4 0xC0000207#32] := by decide +kernel
  obtain ⟨after, ran, kernel⟩ := Option.map_eq_some_iff.mp blocked
  exact ⟨after, ran, kernel, Limiter.no_orphan freshLimiter after threeLocks ⟨rfl, rfl, rfl⟩ careful ran⟩

/-- The address logs in once its lock has run out and before a cleanup lifts its block. -/
theorem login_orphans : ∃ after, freshLimiter.run [(atSecond 0, .forceLockout "192.0.2.7" "auto"),
    (atSecond 172801, .clearWith "192.0.2.7")] = some after ∧ ¬after.NoOrphan := by
  have blocked : (freshLimiter.run [(atSecond 0, .forceLockout "192.0.2.7" "auto"),
      (atSecond 172801, .clearWith "192.0.2.7")]).map (fun after => (after.running, after.attempts, after.kernel)) =
      some (true, [], [.v4 0xC0000207#32]) := by
    decide +kernel
  obtain ⟨after, ran, seen⟩ := Option.map_eq_some_iff.mp blocked
  simp only [Prod.mk.injEq] at seen
  obtain ⟨running, attempts, kernel⟩ := seen
  refine ⟨after, ran, fun lifted => ?_⟩
  have guarded := lifted _ (kernel ▸ List.mem_cons_self)
  rw [if_pos running] at guarded
  obtain ⟨known, held, -⟩ := guarded
  rw [attempts] at held
  nomatch held

end Auth
