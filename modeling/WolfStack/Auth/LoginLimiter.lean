import WolfStack.Auth.IpAddr

/-! The login rate limiter, after `auth/mod.rs`: its records in memory, the kernel
blocks that outlive the process, and the lockout file they are restored from. -/

namespace Auth

structure LoginLockoutConfig where
  maxFailures : Nat
  windowSeconds : Nat
  lockoutSeconds : Nat
  trustedIps : List String
  enabled : Bool
deriving DecidableEq, Repr

def LoginLockoutConfig.default : LoginLockoutConfig := ⟨3, 300, 48 * 3600, [], true⟩

/-- The address that a text stands for in the kernel. -/
def canonical (ip : String) : Option IpAddr := (parseIp ip).map canonicalIp

def LoginLockoutConfig.isTrusted (config : LoginLockoutConfig) (ip : String) : Bool :=
  match canonical ip with
  | some target => config.trustedIps.any fun entry => trustedEntryCovers entry target
  | none => false

def nanos : Nat := 1000000000

theorem nanos_pos : 0 < nanos := Nat.zero_lt_succ _

/-- The seconds of an `Instant` are an i64; the addition panics when they overflow. -/
def addSeconds (instant seconds : Nat) : Option Nat :=
  if instant / nanos + seconds < 2 ^ 63 then some (instant + seconds * nanos) else none

theorem addSeconds_later {instant seconds later : Nat} (added : addSeconds instant seconds = some later) :
    instant < later ↔ 0 < seconds := by
  obtain ⟨-, sum⟩ := Option.ite_none_right_eq_some.mp added
  rw [← Option.some.inj sum, Nat.lt_add_right_iff_pos]
  exact Nat.mul_pos_iff_of_pos_right nanos_pos

structure AttemptRecord where
  failures : List Nat
  lockedUntil : Option Nat
  lastUsername : String
deriving DecidableEq, Repr

def AttemptRecord.default : AttemptRecord := ⟨[], none, ""⟩

structure PersistedLockout where
  ip : String
  lockedAt : Nat
  lockoutSeconds : Nat
deriving DecidableEq, Repr

/-- The state of a node: what the process holds, if it runs, the addresses the kernel
drops, and the lockout file, unless it does not parse, with the instant it was written. -/
structure Limiter where
  config : LoginLockoutConfig
  running : Bool
  attempts : List (String × AttemptRecord)
  kernel : List IpAddr
  file : Option (List PersistedLockout)
  writtenAt : Nat
deriving DecidableEq

inductive FileWrite where
  | done
  | failed
  | torn
deriving DecidableEq, Repr

/-- What a call meets: the instants at which it reads the clock first and when it writes
the file, the Unix time, the addresses under protection, those for which the kernel
refuses a block or keeps one, and how the write goes. -/
structure Moment where
  now : Nat
  savedAt : Nat
  unix : Nat
  protectedIps : List IpAddr
  unblockable : List IpAddr
  stuck : List IpAddr
  write : FileWrite

namespace Limiter

def record (limiter : Limiter) (ip : String) : Option AttemptRecord := limiter.attempts.lookup ip

def remove (limiter : Limiter) (ip : String) : Limiter :=
  { limiter with attempts := limiter.attempts.filter fun known => known.1 ≠ ip }

def put (limiter : Limiter) (ip : String) (rec : AttemptRecord) : Limiter :=
  { limiter with attempts := (ip, rec) :: (limiter.remove ip).attempts }

def kernelBlockIp (limiter : Limiter) (moment : Moment) (ip : String) : Limiter :=
  match canonical ip with
  | some target =>
    if target ∈ moment.protectedIps ∨ target ∈ moment.unblockable then limiter
    else { limiter with kernel := target :: limiter.kernel.filter (· ≠ target) }
  | none => limiter

def kernelUnblockIp (limiter : Limiter) (moment : Moment) (ip : String) : Limiter :=
  match canonical ip with
  | some target =>
    if target ∈ moment.stuck then limiter else { limiter with kernel := limiter.kernel.filter (· ≠ target) }
  | none => limiter

/-- The entry of a lock that still holds. Its whole length is not on the record and is
taken from the configuration. -/
def persisted (config : LoginLockoutConfig) (moment : Moment) (known : String × AttemptRecord) :
    Option PersistedLockout :=
  match known.2.lockedUntil with
  | some until_ =>
    if until_ > moment.savedAt then
      let remaining := (until_ - moment.savedAt) / nanos
      some ⟨known.1, moment.unix - (config.lockoutSeconds - remaining), config.lockoutSeconds⟩
    else none
  | none => none

def persistLockouts (limiter : Limiter) (moment : Moment) : Limiter :=
  match moment.write with
  | .done =>
    { limiter with file := some (limiter.attempts.filterMap (persisted limiter.config moment)), writtenAt := moment.savedAt }
  | .failed => limiter
  | .torn => { limiter with file := none, writtenAt := moment.savedAt }

def lockOut (limiter : Limiter) (moment : Moment) (ip : String) (rec : AttemptRecord) : Limiter :=
  ((limiter.put ip rec).kernelBlockIp moment ip).persistLockouts moment

def recent (limiter : Limiter) (moment : Moment) (failures : List Nat) : List Nat :=
  failures.filter fun t => moment.now - t < limiter.config.windowSeconds * nanos

/-- Whether the address was locked by this failure; no result if the call panics. -/
def recordFailureWith (limiter : Limiter) (moment : Moment) (ip username : String) : Option (Limiter × Bool) :=
  if limiter.config.isTrusted ip then some (limiter, false)
  else if !limiter.config.enabled then some (limiter, false)
  else
    let entry := (limiter.record ip).getD .default
    let failures := limiter.recent moment entry.failures ++ [moment.now]
    if failures.length ≥ limiter.config.maxFailures ∧ entry.lockedUntil = none then
      (addSeconds moment.now limiter.config.lockoutSeconds).map fun until_ =>
        (limiter.lockOut moment ip ⟨failures, some until_, username⟩, true)
    else some (limiter.put ip ⟨failures, entry.lockedUntil, username⟩, false)

def forceLockout (limiter : Limiter) (moment : Moment) (ip source : String) : Option (Limiter × Bool) :=
  if limiter.config.isTrusted ip then some (limiter, false)
  else if !limiter.config.enabled then some (limiter, false)
  else
    let entry := (limiter.record ip).getD .default
    if entry.lockedUntil.any (· > moment.now) then some (limiter, false)
    else (addSeconds moment.now limiter.config.lockoutSeconds).map fun until_ =>
      (limiter.lockOut moment ip { entry with lockedUntil := some until_, lastUsername := source }, true)

/-- A longer lock that is there already stays. -/
def addPropagatedLockout (limiter : Limiter) (moment : Moment) (ip : String) (lockoutSeconds : Nat) : Option Limiter :=
  if limiter.config.isTrusted ip then some limiter
  else
    let entry := (limiter.record ip).getD .default
    (addSeconds moment.now lockoutSeconds).map fun newUntil =>
      let until_ := match entry.lockedUntil with
        | some existing => if existing > newUntil then existing else newUntil
        | none => newUntil
      limiter.lockOut moment ip { entry with lockedUntil := some until_ }

def clearWith (limiter : Limiter) (ip : String) : Limiter := limiter.remove ip

def unblockLocal (limiter : Limiter) (moment : Moment) (ip : String) : Limiter :=
  ((limiter.remove ip).kernelUnblockIp moment ip).persistLockouts moment

def isLockedOut (limiter : Limiter) (now : Nat) (ip : String) : Bool :=
  if limiter.config.isTrusted ip || !limiter.config.enabled then false
  else match limiter.record ip with
    | some rec => rec.lockedUntil.any (· > now)
    | none => false

/-- A record goes when its failures are out of the window and it has no lock that holds. -/
def cleaned (limiter : Limiter) (moment : Moment) (known : String × AttemptRecord) : Option (String × AttemptRecord) :=
  let failures := limiter.recent moment known.2.failures
  let stillLocked := known.2.lockedUntil.any (· > moment.now)
  if failures ≠ [] ∨ stillLocked = true then some (known.1, { known.2 with failures }) else none

def expired (moment : Moment) (known : String × AttemptRecord) : Bool := known.2.lockedUntil.any (· ≤ moment.now)

def unblockAll (limiter : Limiter) (moment : Moment) : List String → Limiter
  | [] => limiter
  | ip :: rest => unblockAll (limiter.kernelUnblockIp moment ip) moment rest

def cleanup (limiter : Limiter) (moment : Moment) : Limiter :=
  let toUnblock := (limiter.attempts.filter (expired moment)).map (·.1)
  let kept := { limiter with attempts := limiter.attempts.filterMap (limiter.cleaned moment) }
  let lifted := kept.unblockAll moment toUnblock
  if lifted.attempts.isEmpty then lifted else lifted.persistLockouts moment

def maxU64 : Nat := 2 ^ 64 - 1

/-- An address under protection keeps its lock but not its kernel block. -/
def enforce (limiter : Limiter) (moment : Moment) (ip : String) : Limiter :=
  if (canonical ip).any (· ∈ moment.protectedIps) then limiter.kernelUnblockIp moment ip
  else limiter.kernelBlockIp moment ip

def restoreEntry (limiter : Limiter) (moment : Moment) (entry : PersistedLockout) : Option Limiter :=
  if limiter.config.isTrusted entry.ip then some limiter
  else
    let expiresAtUnix := min (entry.lockedAt + entry.lockoutSeconds) maxU64
    if expiresAtUnix ≤ moment.unix then some (limiter.kernelUnblockIp moment entry.ip)
    else (addSeconds moment.now (expiresAtUnix - moment.unix)).map fun until_ =>
      (limiter.enforce moment entry.ip).put entry.ip
        { (limiter.record entry.ip).getD .default with lockedUntil := some until_ }

def restoreAll (limiter : Limiter) (moment : Moment) : List PersistedLockout → Option Limiter
  | [] => some limiter
  | entry :: rest => (limiter.restoreEntry moment entry).bind fun restored => restored.restoreAll moment rest

def restorePersistedLockouts (limiter : Limiter) (moment : Moment) : Option Limiter :=
  match limiter.file with
  | some snapshot => limiter.restoreAll moment snapshot
  | none => some limiter

end Limiter

inductive Call where
  | recordFailureWith (ip username : String)
  | forceLockout (ip source : String)
  | addPropagatedLockout (ip : String) (lockoutSeconds : Nat)
  | clearWith (ip : String)
  | unblockLocal (ip : String)
  | cleanup
  | stop
  | start
deriving DecidableEq, Repr

def Limiter.serve (limiter : Limiter) (result : Option Limiter) : Option Limiter :=
  if limiter.running then result else none

/-- The state after a call, if there is a process to serve it and it does not panic.
A stopped process forgets its records. -/
def Limiter.step (limiter : Limiter) (moment : Moment) : Call → Option Limiter
  | .recordFailureWith ip username => limiter.serve ((limiter.recordFailureWith moment ip username).map (·.1))
  | .forceLockout ip source => limiter.serve ((limiter.forceLockout moment ip source).map (·.1))
  | .addPropagatedLockout ip lockoutSeconds => limiter.serve (limiter.addPropagatedLockout moment ip lockoutSeconds)
  | .clearWith ip => limiter.serve (some (limiter.clearWith ip))
  | .unblockLocal ip => limiter.serve (some (limiter.unblockLocal moment ip))
  | .cleanup => limiter.serve (some (limiter.cleanup moment))
  | .stop => limiter.serve (some { limiter with running := false, attempts := [] })
  | .start => if limiter.running then none else { limiter with running := true }.restorePersistedLockouts moment

def Limiter.run : Limiter → List (Moment × Call) → Option Limiter
  | limiter, [] => some limiter
  | limiter, (moment, call) :: rest => (limiter.step moment call).bind fun after => after.run rest

def Throughout (holds : Limiter → Moment → Call → Prop) : Limiter → List (Moment × Call) → Prop
  | _, [] => True
  | limiter, (moment, call) :: rest =>
    holds limiter moment call ∧ ∀ after, limiter.step moment call = some after → Throughout holds after rest

instance Throughout.decidable {holds : Limiter → Moment → Call → Prop} [∀ limiter moment call, Decidable (holds limiter moment call)]
    (limiter : Limiter) (calls : List (Moment × Call)) : Decidable (Throughout holds limiter calls) :=
  match calls with
  | [] => isTrue trivial
  | (moment, call) :: rest =>
    match found : limiter.step moment call with
    | none => decidable_of_iff (holds limiter moment call)
        ⟨fun now => ⟨now, fun _ stepped => absurd (found.symm.trans stepped) nofun⟩, And.left⟩
    | some after =>
      have : Decidable (Throughout holds after rest) := Throughout.decidable after rest
      decidable_of_iff (holds limiter moment call ∧ Throughout holds after rest)
        ⟨fun all => ⟨all.1, fun _ stepped => Option.some.inj (found.symm.trans stepped) ▸ all.2⟩,
          fun all => ⟨all.1, all.2 after found⟩⟩

theorem Throughout.reached {holds : Limiter → Moment → Call → Prop} {limiter state : Limiter}
    {before rest : List (Moment × Call)} {moment : Moment} {call : Call}
    (all : Throughout holds limiter (before ++ (moment, call) :: rest)) (run : limiter.run before = some state) :
    holds state moment call := by
  induction before generalizing limiter with
  | nil =>
    cases run
    exact all.1
  | cons timed rest ih =>
    obtain ⟨after, stepped, later⟩ := Option.bind_eq_some_iff.mp run
    exact ih (all.2 after stepped) later

theorem throughout_congr (inv : Limiter → Prop) {first second : Limiter → Moment → Call → Prop}
    (keeps : ∀ limiter moment call after, inv limiter → limiter.step moment call = some after → inv after)
    (same : ∀ limiter moment call, inv limiter → (first limiter moment call ↔ second limiter moment call))
    (limiter : Limiter) (calls : List (Moment × Call)) (holds : inv limiter) :
    Throughout first limiter calls ↔ Throughout second limiter calls := by
  induction calls generalizing limiter with
  | nil => exact Iff.rfl
  | cons timed rest ih =>
    obtain ⟨moment, call⟩ := timed
    exact and_congr (same limiter moment call holds) (forall₂_congr fun after stepped =>
      ih after (keeps limiter moment call after holds stepped))

end Auth
