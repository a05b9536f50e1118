import Mathlib.Data.List.TakeWhile
import WolfStack.WolfHa.SnapshotNames
import WolfStack.WolfHa.Host
import Mathlib.Algebra.Group.Nat.Defs

/-! Datasets and their snapshots, after `replication/zfs_send.rs`: which snapshots are the
container's, which one an incremental starts from, and what `zfs send` and `zfs receive` do. -/

namespace WolfHa
namespace ZfsSend

/-- A snapshot has a name, and an identity that no other snapshot has. -/
structure Snap where
  name : String
  guid : Nat
  deriving DecidableEq, Repr

/-- The snapshots of every dataset there is, oldest first. -/
abbrev Pool := String → Option (List Snap)

variable {list sent rest : List Snap} {vmid base : String} {snap : Snap}

def zfsNeedsSeed : String := "WOLFHA_ZFS_NEEDS_SEED"

/-- `str::parse::<u64>`, which takes a plus sign. -/
def parseU64 (chars : List Char) : Option Nat :=
  let digits : List Char := match chars with
    | '+' :: rest => rest
    | chars => chars
  let value : Nat := digits.foldl (fun value c => value * 10 + (c.toNat - 48)) 0
  if !digits.isEmpty && digits.all Char.isDigit && decide (value < 2 ^ 64) then some value else none

def snapshotTs (name : String) : Nat := (parseU64 (lastPiece name)).getD 0

def isSafeDataset (s : String) : Bool :=
  s ≠ "" && s.utf8ByteSize ≤ 255 && s.toList.head? ≠ some '/' && s.toList.getLast? ≠ some '/' &&
    !contains s ".." && !contains s "//" &&
    s.toList.all fun c => c.isAlphanum || c == '_' || c == '-' || c == '.' || c == '/' || c == ':'

def parentDataset (dataset : String) : Option String :=
  let chars := dataset.toList
  let after := chars.reverse.takeWhile (· ≠ '/')
  if after.length = chars.length then none else some (String.ofList (chars.take (chars.length - after.length - 1)))

/-- `list_ours`, with the identity of each snapshot. -/
def ours (list : List Snap) (vmid : String) : List Snap := list.filter fun snap => isOurs snap.name vmid

def prunePlan (ours : List String) (keep : String) : List String := ours.filter fun s => s ≠ keep

def destroySnapshots (list : List Snap) (plan : List String) (fails : String → Bool) : List Snap :=
  list.filter fun snap => !plan.contains snap.name || fails snap.name

def prune (list : List Snap) (vmid keep : String) (fails : String → Bool) : List Snap :=
  destroySnapshots list (prunePlan ((ours list vmid).map (·.name)) keep) fails

theorem mem_ours : snap ∈ ours list vmid ↔ snap ∈ list ∧ isOurs snap.name vmid = true := List.mem_filter

theorem prune_sublist (list : List Snap) (vmid keep : String) (fails : String → Bool) :
    (prune list vmid keep fails).Sublist list := List.filter_sublist

theorem mem_prune {keep : String} {fails : String → Bool} :
    snap ∈ prune list vmid keep fails ↔
      snap ∈ list ∧ (isOurs snap.name vmid = true → snap.name = keep ∨ fails snap.name = true) := by
  unfold prune destroySnapshots prunePlan
  rw [List.mem_filter]
  refine and_congr_right fun member => ?_
  rw [Bool.or_eq_true, Bool.not_eq_true', ← Bool.not_eq_true, List.contains_iff_mem, List.mem_filter, List.mem_map]
  constructor
  · intro spared mine
    by_cases kept : snap.name = keep
    · exact .inl kept
    · refine .inr (spared.resolve_left fun outside => outside ⟨⟨snap, mem_ours.mpr ⟨member, mine⟩, rfl⟩, ?_⟩)
      exact decide_eq_true kept
  · intro spared
    by_cases fails_ : fails snap.name = true
    · exact .inr fails_
    · refine .inl fun ⟨⟨other, there, same⟩, apart_⟩ => ?_
      have mine : isOurs snap.name vmid = true := same ▸ (mem_ours.mp there).2
      exact of_decide_eq_true apart_ ((spared mine).resolve_right fails_)

theorem getLast_prune {keep : String} {fails : String → Bool} (last : list.getLast? = some snap)
    (spared : isOurs snap.name vmid = true → snap.name = keep ∨ fails snap.name = true) :
    (prune list vmid keep fails).getLast? = some snap := by
  obtain ⟨front, rfl⟩ := List.getLast?_eq_some_iff.mp last
  have kept : snap ∈ prune (front ++ [snap]) vmid keep fails := mem_prune.mpr ⟨by simp, spared⟩
  unfold prune destroySnapshots at *
  rw [List.filter_append, List.filter_cons, if_pos (List.mem_filter.mp kept).2]
  simp

/-- Pruning spares the newest of ours. -/
theorem newest_prune {newest : Snap} {keep : String} {fails : String → Bool}
    (last : (ours list vmid).getLast? = some newest) (named : newest.name = keep) :
    (ours (prune list vmid keep fails) vmid).getLast? = some newest := by
  have commute : ours (prune list vmid keep fails) vmid = prune (ours list vmid) vmid keep fails := by
    unfold prune destroySnapshots ours
    rw [List.filter_filter, List.filter_filter]
    simp only [List.filter_filter, Bool.and_self, Bool.and_comm]
  rw [commute]
  exact getLast_prune last fun _ => .inl named

theorem newest_ours {last : Snap} (ends : list.getLast? = some last) (mine : isOurs last.name vmid = true) :
    (ours list vmid).getLast? = some last := by
  obtain ⟨front, rfl⟩ := List.getLast?_eq_some_iff.mp ends
  unfold ours
  rw [List.filter_append, List.filter_cons, if_pos mine]
  simp

/-- `max_by_key`: the last of those with the highest key. -/
def maxByKey (key : String → Nat) : List String → Option String
  | [] => none
  | s :: rest =>
    match maxByKey key rest with
    | none => some s
    | some best => if key s ≤ key best then some best else some s

theorem maxByKey_none {key : String → Nat} {names : List String} : maxByKey key names = none ↔ names = [] := by
  cases names with
  | nil => exact ⟨fun _ => rfl, fun _ => rfl⟩
  | cons s rest =>
    rw [maxByKey]
    cases maxByKey key rest with
    | none => simp
    | some best =>
      dsimp only
      split <;> simp

theorem maxByKey_some {key : String → Nat} {names : List String} {best : String} (found : maxByKey key names = some best) :
    best ∈ names ∧ ∀ s ∈ names, key s ≤ key best := by
  induction names generalizing best with
  | nil => exact absurd found nofun
  | cons s rest ih =>
    rw [maxByKey] at found
    cases among : maxByKey key rest with
    | none =>
      rw [among] at found
      obtain rfl := Option.some.inj found
      rw [maxByKey_none.mp among]
      simp
    | some other =>
      obtain ⟨member, above⟩ := ih among
      simp only [among] at found
      split at found
      · rename_i below
        obtain rfl := Option.some.inj found
        refine ⟨List.mem_cons_of_mem s member, fun t there => ?_⟩
        rcases List.mem_cons.mp there with rfl | later
        · exact below
        · exact above t later
      · rename_i below
        obtain rfl := Option.some.inj found
        refine ⟨List.mem_cons_self, fun t there => ?_⟩
        rcases List.mem_cons.mp there with rfl | later
        · exact Nat.le_refl _
        · exact Nat.le_trans (above t later) (Nat.le_of_not_le below)

def newestCommon (primary replica : List String) : Option String :=
  maxByKey snapshotTs (primary.filter fun s => replica.contains s)

theorem newestCommon_some {primary replica : List String} (found : newestCommon primary replica = some base) :
    base ∈ primary ∧ base ∈ replica ∧ ∀ s ∈ primary, s ∈ replica → snapshotTs s ≤ snapshotTs base := by
  obtain ⟨member, above⟩ := maxByKey_some found
  simp only [List.mem_filter, List.contains_iff_mem] at member above
  exact ⟨member.1, member.2, fun s left right => above s ⟨left, right⟩⟩

/-- What `zfs send` puts out: the snapshot it starts from, and those it carries. -/
structure Stream where
  base : Option Snap
  snaps : List Snap
  deriving DecidableEq, Repr

/-- `zfs send -p ds@target`, or `zfs send -I @base ds@target` with all snapshots in between. -/
def send (list : List Snap) (base : Option String) (target : String) : Option Stream :=
  match base with
  | none => (list.find? fun snap => snap.name = target).map fun snap => ⟨none, [snap]⟩
  | some base =>
    match list.dropWhile fun snap => snap.name ≠ base with
    | [] => none
    | first :: later =>
      match later.dropWhile fun snap => snap.name ≠ target with
      | [] => none
      | last :: _ => some ⟨some first, later.takeWhile (fun snap => snap.name ≠ target) ++ [last]⟩

/-- What of a stream is there: all of it, or as many snapshots as came before it was cut. -/
def Stream.arrived (stream : Stream) (cut : Option Nat) : List Snap :=
  match cut with
  | none => stream.snaps
  | some count => stream.snaps.take count

/-- `zfs receive -F`. An incremental goes only on top of the snapshot it starts from, which
must be the newest; a full stream makes the dataset. Says whether the command succeeds. -/
def receive (dataset : Option (List Snap)) (stream : Stream) (cut : Option Nat) : Option (List Snap) × Bool :=
  match stream.base, dataset with
  | none, none => if stream.arrived cut = stream.snaps then (some stream.snaps, cut.isNone) else (none, false)
  | none, some list => (some list, false)
  | some _, none => (none, false)
  | some base, some list =>
    if list.getLast? = some base then (some (list ++ stream.arrived cut), cut.isNone) else (some list, false)

theorem arrived_front (stream : Stream) (cut : Option Nat) : stream.arrived cut <+: stream.snaps := by
  cases cut with
  | none => exact List.prefix_refl _
  | some count => exact List.take_prefix count _

theorem receive_whole (snaps : List Snap) : receive none ⟨none, snaps⟩ none = (some snaps, true) := by
  unfold receive
  exact if_pos rfl

theorem receive_onto (snaps : List Snap) (last : list.getLast? = some snap) :
    receive (some list) ⟨some snap, snaps⟩ none = (some (list ++ snaps), true) := by
  unfold receive
  exact if_pos last

variable {stream : Stream} {target : String}

theorem dropWhile_name {name : String} {first : Snap} (dropped : (list.dropWhile fun snap => snap.name ≠ name) = first :: rest) :
    first.name = name ∧ list = (list.takeWhile fun snap => snap.name ≠ name) ++ first :: rest := by
  constructor
  · have head := List.head?_dropWhile_not (fun snap : Snap => decide (snap.name ≠ name)) list
    rw [dropped] at head
    simpa using head
  · rw [← dropped, List.takeWhile_append_dropWhile]

theorem send_incremental (sends : send list (some base) target = some stream) :
    ∃ front first middle last tail, list = front ++ first :: (middle ++ last :: tail) ∧ first.name = base ∧
      last.name = target ∧ stream = ⟨some first, middle ++ [last]⟩ := by
  unfold send at sends
  dsimp only at sends
  split at sends
  · exact absurd sends nofun
  · rename_i first later found
    split at sends
    · exact absurd sends nofun
    · rename_i last tail reached
      obtain rfl := Option.some.inj sends
      obtain ⟨named, whole⟩ := dropWhile_name found
      obtain ⟨ends, after_⟩ := dropWhile_name reached
      refine ⟨list.takeWhile fun snap => snap.name ≠ base, first, _, last, tail, ?_, named, ends, rfl⟩
      rw [← after_]
      exact whole

theorem send_full (sends : send list none target = some stream) :
    ∃ snap ∈ list, snap.name = target ∧ stream = ⟨none, [snap]⟩ := by
  obtain ⟨snap, found, rfl⟩ := Option.map_eq_some_iff.mp sends
  exact ⟨snap, List.mem_of_find?_eq_some found, by simpa using List.find?_some found, rfl⟩

theorem send_last {origin : Option String} (sends : send list origin target = some stream) :
    ∃ last, stream.snaps.getLast? = some last ∧ last.name = target := by
  cases origin with
  | none =>
    obtain ⟨snap, _, named, rfl⟩ := send_full sends
    exact ⟨snap, rfl, named⟩
  | some base =>
    obtain ⟨_, _, _, last, _, _, _, named, rfl⟩ := send_incremental sends
    exact ⟨last, by simp, named⟩

theorem send_mem {origin : Option String} (sends : send list origin target = some stream) :
    ∀ snap ∈ stream.snaps, snap ∈ list := by
  cases origin with
  | none =>
    obtain ⟨snap, member, _, rfl⟩ := send_full sends
    simpa using member
  | some base =>
    obtain ⟨_, _, _, _, _, rfl, _, _, rfl⟩ := send_incremental sends
    intro snap member
    simp only [List.mem_append, List.mem_singleton] at member
    rcases member with middle | last
    · simp [middle]
    · simp [last]

theorem send_some (member : snap ∈ list) : ∃ snaps, send list none snap.name = some ⟨none, snaps⟩ := by
  unfold send
  cases found : list.find? (fun other => other.name = snap.name) with
  | none =>
    have missing := List.find?_eq_none.mp found snap member
    exact absurd (decide_eq_true rfl) missing
  | some other => exact ⟨[other], rfl⟩

theorem send_newest {newest : Snap} (last : list.getLast? = some newest) (member : snap ∈ list) (apart_ : snap.name ≠ newest.name) :
    ∃ first snaps, send list (some snap.name) newest.name = some ⟨some first, snaps⟩ ∧ first ∈ list ∧ first.name = snap.name := by
  obtain ⟨front, rfl⟩ := List.getLast?_eq_some_iff.mp last
  unfold send
  dsimp only
  cases base : (front ++ [newest]).dropWhile fun other => other.name ≠ snap.name with
  | nil =>
    have missing := List.dropWhile_eq_nil_iff.mp base snap member
    exact absurd rfl (of_decide_eq_true missing)
  | cons first later =>
    obtain ⟨named, whole⟩ := dropWhile_name base
    -- The base is not the newest, which therefore comes after it.
    have after_ : newest ∈ later := by
      have ends : (first :: later).getLast? = some newest := by
        have joined := congrArg List.getLast? whole
        rw [List.getLast?_append_of_ne_nil _ (by simp), List.getLast?_append_of_ne_nil _ (by simp)] at joined
        exact joined.symm
      cases later with
      | nil =>
        obtain rfl : first = newest := Option.some.inj ends
        exact absurd named.symm apart_
      | cons second rest => exact List.mem_of_getLast? ends
    dsimp only
    cases target : later.dropWhile fun other => other.name ≠ newest.name with
    | nil =>
      have missing := List.dropWhile_eq_nil_iff.mp target newest after_
      exact absurd rfl (of_decide_eq_true missing)
    | cons final rest =>
      refine ⟨first, _, rfl, ?_, named⟩
      rw [whole]
      exact List.mem_append_right _ List.mem_cons_self

def Rising (vmid : String) (list : List Snap) : Prop :=
  (ours list vmid).Pairwise fun older newer => snapshotTs older.name < snapshotTs newer.name

theorem Rising.sublist {fewer : List Snap} (rising : Rising vmid list) (sub : fewer.Sublist list) : Rising vmid fewer :=
  List.Pairwise.sublist (sub.filter _) rising

theorem rising_append {left right : List Snap} : Rising vmid (left ++ right) ↔
    Rising vmid left ∧ Rising vmid right ∧
      ∀ older ∈ ours left vmid, ∀ newer ∈ ours right vmid, snapshotTs older.name < snapshotTs newer.name := by
  unfold Rising
  rw [ours, List.filter_append, List.pairwise_append]
  rfl

theorem Rising.named (rising : Rising vmid list) {x y : Snap} (left : x ∈ ours list vmid) (right : y ∈ ours list vmid)
    (same : x.name = y.name) : x = y := by
  unfold Rising at rising
  generalize ours list vmid = mine at *
  induction rising with
  | nil => exact absurd left List.not_mem_nil
  | cons below _ ih =>
    rcases List.mem_cons.mp left with rfl | there
    · rcases List.mem_cons.mp right with equal | here
      · exact equal.symm
      · have later := below y here
        rw [same] at later
        exact absurd later (Nat.lt_irrefl _)
    · rcases List.mem_cons.mp right with rfl | here
      · have later := below x there
        rw [same] at later
        exact absurd later (Nat.lt_irrefl _)
      · exact ih there here

theorem Rising.last (rising : Rising vmid list) (last : list.getLast? = some snap) {other : Snap}
    (mine : other ∈ ours list vmid) (ends : isOurs snap.name vmid = true) :
    other = snap ∨ snapshotTs other.name < snapshotTs snap.name := by
  obtain ⟨front, rfl⟩ := List.getLast?_eq_some_iff.mp last
  obtain ⟨member, ours_⟩ := mem_ours.mp mine
  rcases List.mem_append.mp member with earlier | here
  · exact .inr ((rising_append.mp rising).2.2 other (mem_ours.mpr ⟨earlier, ours_⟩) snap (mem_ours.mpr ⟨by simp, ends⟩))
  · exact .inl (List.mem_singleton.mp here)

/-- A copy that shares a snapshot of ours with the primary ends with one that they share. -/
def Linked (vmid : String) (primary copy : Option (List Snap)) : Prop :=
  ∀ list copied, primary = some list → copy = some copied → (∃ snap ∈ ours copied vmid, snap ∈ list) →
    ∃ last, copied.getLast? = some last ∧ last ∈ ours list vmid

end ZfsSend
end WolfHa
