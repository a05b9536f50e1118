import Mathlib.Data.List.Basic
import Mathlib.Logic.Function.Basic
import Mathlib.Data.List.Infix

/-! The names of replication snapshots, after `replication/snapshot.rs` and
`replication/zfs_send.rs`. Whose snapshot a name is, is read off its beginning, and a
subject's own name may contain what separates the parts. -/

namespace WolfHa

/-- `auth::is_safe_name`, which the names of containers pass. -/
def isSafeName (name : String) : Bool :=
  name ≠ "" && name.utf8ByteSize ≤ 253 &&
    (name.toList.all fun c => c.isAlphanum || c == '-' || c == '_' || c == '.') &&
    !decide ("..".toList <:+: name.toList)

/-- `str::starts_with`. -/
def startsWith (text part : String) : Bool := decide (part.toList <+: text.toList)

namespace Snapshot

def snapPrefix : String := "wolfha"

def snapshotName (subject : String) (unixSecs : Nat) : String := snapPrefix ++ "-" ++ subject ++ "-" ++ toString unixSecs

def isOurs (name subject : String) : Bool := startsWith name (snapPrefix ++ "-" ++ subject ++ "-")

end Snapshot

namespace ZfsSend

def snapPrefix : String := "wolfha-zfs"

def snapshotName (vmid : String) (unixSecs : Nat) : String := snapPrefix ++ "-" ++ vmid ++ "-" ++ toString unixSecs

def lastPiece (name : String) : List Char := (name.toList.reverse.takeWhile (· ≠ '-')).reverse

def isOurs (name vmid : String) : Bool :=
  startsWith name (snapPrefix ++ "-" ++ vmid ++ "-") && (lastPiece name).all Char.isDigit

def isVmid (s : String) : Bool := s ≠ "" && s.utf8ByteSize ≤ 9 && s.toList.all Char.isDigit && s ≠ "0"

end ZfsSend

/-- Where snapshots are kept: the names below a dataset, in a directory, in a volume group. -/
inductive Place where
  | dataset (name : String)
  | directory (path : String)
  | group (name : String)
deriving DecidableEq, Repr

abbrev Backing := Place → List String

inductive ConsistencySource where
  | live
  | zfs (dataset : String)
  | btrfs (subvol : String)
  | lvmThin (lv : String)
deriving DecidableEq, Repr

def trimSlashes (chars : List Char) : List Char := (chars.reverse.dropWhile (· = '/')).reverse

/-- A directory beside the subvolume: that of its parent. -/
def btrfsSnapDir (subvol : String) : String :=
  let trimmed := trimSlashes subvol.toList
  let front := (trimmed.reverse.dropWhile (· ≠ '/')).reverse
  let parent := if front = [] then ['.'] else if trimSlashes front = [] then ['/'] else trimSlashes front
  String.ofList parent ++ "/.wolfha-snapshots"

def volumeGroup (lv : String) : String := String.ofList (lv.toList.takeWhile (· ≠ '/'))

def ConsistencySource.place : ConsistencySource → Option Place
  | .live => none
  | .zfs dataset => some (.dataset dataset)
  | .btrfs subvol => some (.directory (btrfsSnapDir subvol))
  | .lvmThin lv => some (.group (volumeGroup lv))

/-- Every snapshot of the subject goes, those apart that cannot be removed; and how many went. -/
def cleanupStale (source : ConsistencySource) (subject : String) (stuck : String → Bool) (backing : Backing) :
    Backing × Nat :=
  match source.place with
  | none => (backing, 0)
  | some place =>
    (Function.update backing place ((backing place).filter fun name => !Snapshot.isOurs name subject || stuck name),
      (backing place).countP fun name => Snapshot.isOurs name subject && !stuck name)

theorem cleanupStale_spares {source : ConsistencySource} {subject name : String} {stuck : String → Bool}
    {backing : Backing} {place : Place} (foreign : Snapshot.isOurs name subject = false) (held : name ∈ backing place) :
    name ∈ (cleanupStale source subject stuck backing).1 place := by
  unfold cleanupStale
  split
  · exact held
  · rename_i cleared _
    dsimp only
    by_cases same : place = cleared
    · subst same
      rw [Function.update_self, List.mem_filter]
      exact ⟨held, by simp [foreign]⟩
    · rw [Function.update_of_ne same]
      exact held

/-- The subject `a` takes snapshots of `b` for its own: the names agree, or what follows
`a` in `b` is a dash. -/
def Encroaches (a b : String) : Prop := a = b ∨ a.toList ++ ['-'] <+: b.toList

instance (a b : String) : Decidable (Encroaches a b) := inferInstanceAs (Decidable (_ ∨ _))

theorem number_dashless (n : Nat) : '-' ∉ (toString n).toList := by
  intro member
  rw [Nat.toString_eq_ofList_toDigits, String.toList_ofList] at member
  have digit := Nat.isDigit_of_mem_toDigits (by decide) (by decide) member
  revert digit
  decide

theorem dashed_prefix_iff {a b t : List Char} (plain : '-' ∉ t) :
    a ++ ['-'] <+: b ++ '-' :: t ↔ a = b ∨ a ++ ['-'] <+: b := by
  constructor
  · intro begins
    obtain ⟨rest, split⟩ := begins
    rw [List.append_assoc, List.singleton_append, List.append_eq_append_iff] at split
    obtain ⟨more, longer, tail⟩ | ⟨more, shorter, tail⟩ := split
    · cases more with
      | nil => exact .inl (by simpa using longer.symm)
      | cons c more =>
        obtain ⟨rfl, -⟩ := List.cons.inj tail
        exact .inr ⟨more, by simp [longer]⟩
    · cases more with
      | nil => exact .inl (by simpa using shorter)
      | cons c more =>
        obtain ⟨-, inside⟩ := List.cons.inj tail
        exact absurd (by simp [inside]) plain
  · intro either
    obtain rfl | inside := either
    · exact ⟨t, by simp⟩
    · exact inside.trans (List.prefix_append b _)

theorem startsWith_iff {text part : String} : startsWith text part = true ↔ part.toList <+: text.toList := by
  rw [startsWith, decide_eq_true_eq]

theorem Snapshot.isOurs_snapshotName (a b : String) (t : Nat) :
    Snapshot.isOurs (Snapshot.snapshotName b t) a = true ↔ Encroaches a b := by
  have start : ∀ x rest : String, (Snapshot.snapPrefix ++ "-" ++ x ++ "-" ++ rest).toList =
      "wolfha-".toList ++ (x.toList ++ '-' :: rest.toList) := by
    intro x rest
    simp [Snapshot.snapPrefix]
  have mark : (Snapshot.snapPrefix ++ "-" ++ a ++ "-").toList = "wolfha-".toList ++ (a.toList ++ ['-']) := by
    simp [Snapshot.snapPrefix]
  rw [Snapshot.isOurs, startsWith_iff, mark, Snapshot.snapshotName, start, List.prefix_append_right_inj,
    dashed_prefix_iff (number_dashless t), Encroaches, String.toList_inj]

/-- A name of the stream driver is one that the file driver gives to such a subject. -/
def ZfsSend.subject (vmid : String) : String := "zfs-" ++ vmid

theorem ZfsSend.snapshotName_eq (vmid : String) (t : Nat) :
    ZfsSend.snapshotName vmid t = Snapshot.snapshotName (ZfsSend.subject vmid) t := by
  apply String.toList_inj.mp
  simp [ZfsSend.snapshotName, Snapshot.snapshotName, ZfsSend.snapPrefix, Snapshot.snapPrefix, ZfsSend.subject]

theorem lastPiece_snapshotName (subject : String) (t : Nat) :
    ZfsSend.lastPiece (Snapshot.snapshotName subject t) = (toString t).toList := by
  have plain : ∀ c ∈ (toString t).toList.reverse, decide (c ≠ '-') = true := by
    intro c member
    rw [decide_eq_true_eq]
    rintro rfl
    exact number_dashless t (List.mem_reverse.mp member)
  have split : (Snapshot.snapshotName subject t).toList.reverse =
      (toString t).toList.reverse ++ '-' :: (Snapshot.snapPrefix ++ "-" ++ subject).toList.reverse := by
    simp [Snapshot.snapshotName]
  rw [ZfsSend.lastPiece, split, List.takeWhile_append_of_pos plain]
  simp

theorem ZfsSend.isOurs_snapshotName (vmid b : String) (t : Nat) :
    ZfsSend.isOurs (Snapshot.snapshotName b t) vmid = true ↔ Encroaches (ZfsSend.subject vmid) b := by
  have digits : (ZfsSend.lastPiece (Snapshot.snapshotName b t)).all Char.isDigit = true := by
    rw [lastPiece_snapshotName, List.all_eq_true, Nat.toString_eq_ofList_toDigits, String.toList_ofList]
    exact fun c member => Nat.isDigit_of_mem_toDigits (by decide) (by decide) member
  have mark : ZfsSend.snapPrefix ++ "-" ++ vmid ++ "-" = Snapshot.snapPrefix ++ "-" ++ ZfsSend.subject vmid ++ "-" := by
    apply String.toList_inj.mp
    simp [ZfsSend.snapPrefix, Snapshot.snapPrefix, ZfsSend.subject]
  rw [ZfsSend.isOurs, digits, Bool.and_true, mark]
  exact Snapshot.isOurs_snapshotName _ b t

/-- Of the snapshots that a subject `b` and a Proxmox container take at `t`, none is taken for
one of `a`, nor `b`'s for an incremental base, and what is cleared for `a` are others. -/
structure Distinguished (a b vmid : String) (t : Nat) : Prop where
  subjects : Snapshot.isOurs (Snapshot.snapshotName b t) a = false
  bases : Snapshot.isOurs (ZfsSend.snapshotName vmid t) a = false
  streams : ZfsSend.isOurs (Snapshot.snapshotName b t) vmid = false
  spared : ∀ source stuck backing place, ∀ name ∈ [Snapshot.snapshotName b t, ZfsSend.snapshotName vmid t],
    name ∈ backing place → name ∈ (cleanupStale source a stuck backing).1 place

/-- Snapshots of different subjects are told apart exactly when no name goes on after
another's with a dash. -/
theorem apart_iff {a b : String} (different : a ≠ b) (vmid : String) (t : Nat) :
    Distinguished a b vmid t ↔ ¬a.toList ++ ['-'] <+: b.toList ∧ ¬Encroaches a (ZfsSend.subject vmid) ∧
      ¬Encroaches (ZfsSend.subject vmid) b := by
  have own : Encroaches a b ↔ a.toList ++ ['-'] <+: b.toList := or_iff_right different
  rw [← own, ← Snapshot.isOurs_snapshotName a b t, ← Snapshot.isOurs_snapshotName a (ZfsSend.subject vmid) t,
    ← ZfsSend.isOurs_snapshotName vmid b t, ← ZfsSend.snapshotName_eq, Bool.not_eq_true, Bool.not_eq_true, Bool.not_eq_true]
  constructor
  · intro apart
    exact ⟨apart.subjects, apart.bases, apart.streams⟩
  · intro kept
    obtain ⟨subjects, bases, streams⟩ := kept
    refine ⟨subjects, bases, streams, ?_⟩
    intro source stuck backing place name listed held
    apply cleanupStale_spares _ held
    rw [List.mem_cons, List.mem_singleton] at listed
    obtain rfl | rfl := listed
    · exact subjects
    · exact bases

theorem apart_iff_sample : Distinguished "web01" "web02" "104" 1700000000 :=
  (apart_iff (by decide) "104" 1700000000).mpr (by decide +kernel)

/-- A round of `db` clears away what a round of `db-1` is reading. -/
theorem db_clears_db_1 : isSafeName "db" = true ∧ isSafeName "db-1" = true ∧ ZfsSend.isVmid "104" = true ∧
    ¬Distinguished "db" "db-1" "104" 1700000000 := by
  refine ⟨by decide +kernel, by decide +kernel, by decide +kernel, ?_⟩
  intro apart
  exact absurd apart.subjects (by decide +kernel)

end WolfHa
