import Mathlib.Data.List.Basic
import Mathlib.Data.List.Nodup
import Mathlib.Algebra.Group.Nat.Defs

/-! The files below a rootfs, by path relative to it, and the operations on them that a
replica uses. Paths are as in `wolfha/mod.rs`: components separated by slashes. -/

namespace Rootfs

abbrev Bytes := List UInt8

inductive Object where
  | file (content : Bytes) (mtime : Int)
  | dir
  | symlink (target : String)
  | other
deriving DecidableEq

/-- `is_safe_rel_path`. -/
def isSafeRelPath (p : String) : Bool :=
  p ≠ "" ∧ p.toList.head? ≠ some '/' ∧ '\x00' ∉ p.toList ∧
    ∀ c ∈ p.toList.splitOn '/', c ≠ ['.', '.'] ∧ c ≠ [] ∧ c ≠ ['.']

/-- `path` lies below `above`. -/
def Under (above path : String) : Prop := above.toList ++ ['/'] <+: path.toList

instance (above path : String) : Decidable (Under above path) :=
  inferInstanceAs (Decidable (_ <+: _))

structure Files where
  entries : List (String × Object)
  distinct : (entries.map fun entry => entry.1).Nodup

namespace Files

def find (files : Files) (p : String) : Option Object := files.entries.lookup p

def keep (files : Files) (kept : String → Bool) : Files where
  entries := files.entries.filter fun entry => kept entry.1
  distinct := files.distinct.sublist (List.filter_sublist.map _)

def removeFile (files : Files) (p : String) : Files := files.keep fun q => q ≠ p

def removeDirAll (files : Files) (p : String) : Files := files.keep fun q => q ≠ p ∧ ¬Under p q

def put (files : Files) (p : String) (object : Object) : Files where
  entries := (p, object) :: (files.removeFile p).entries
  distinct := by
    rw [List.map_cons, List.nodup_cons]
    refine ⟨?_, (files.removeFile p).distinct⟩
    intro member
    obtain ⟨entry, kept, same⟩ := List.mem_map.mp member
    have other := (List.mem_filter.mp kept).2
    simp [same] at other

variable (files : Files)

theorem find_eq_some_iff {p : String} {object : Object} : files.find p = some object ↔ (p, object) ∈ files.entries := by
  obtain ⟨entries, distinct⟩ := files
  dsimp only [find]
  induction entries with
  | nil => simp
  | cons entry rest ih =>
    obtain ⟨key, held⟩ := entry
    rw [List.map_cons, List.nodup_cons] at distinct
    rw [List.lookup_cons, List.mem_cons, Prod.mk.injEq]
    by_cases same : p = key
    · subst same
      have fresh : (p, object) ∉ rest := fun member => distinct.1 (List.mem_map.mpr ⟨_, member, rfl⟩)
      simp [fresh, eq_comm]
    · rw [beq_eq_false_iff_ne.mpr same]
      simpa [same] using ih distinct.2

theorem find_keep (kept : String → Bool) (q : String) :
    (files.keep kept).find q = if kept q then files.find q else none := by
  dsimp only [find, keep]
  induction files.entries with
  | nil => simp
  | cons entry rest ih =>
    obtain ⟨key, held⟩ := entry
    by_cases same : q = key
    · subst same
      by_cases stays : kept q
      · simp [stays]
      · simpa [stays] using ih
    · have differs : (q == key) = false := beq_eq_false_iff_ne.mpr same
      by_cases stays : kept key
      · simpa [stays, List.lookup_cons, differs] using ih
      · simpa [stays, List.lookup_cons, differs] using ih

theorem find_removeFile (p q : String) : (files.removeFile p).find q = if q = p then none else files.find q := by
  rw [removeFile, find_keep]
  by_cases same : q = p <;> simp [same]

theorem find_removeDirAll (p q : String) :
    (files.removeDirAll p).find q = if q = p ∨ Under p q then none else files.find q := by
  rw [removeDirAll, find_keep]
  by_cases same : q = p <;> by_cases under : Under p q <;> simp [same, under]

theorem find_put (p : String) (object : Object) (q : String) :
    (files.put p object).find q = if q = p then some object else files.find q := by
  have other := files.find_removeFile p q
  rw [find] at other
  rw [find, put, List.lookup_cons]
  by_cases same : q = p
  · simp [same]
  · rw [beq_eq_false_iff_ne.mpr same, if_neg same]
    simpa [same] using other

end Files

/-- A rootfs as it stands on a node: its paths are safe, whatever lies below a path makes
it a directory, and sizes are those of a file system. -/
structure Tree extends Files where
  safe : ∀ entry ∈ entries, isSafeRelPath entry.1
  parents : ∀ entry ∈ entries, ∀ i < entry.1.toList.length, entry.1.toList[i]? = some '/' →
    (String.ofList (entry.1.toList.take i), Object.dir) ∈ entries
  sizes : ∀ p content mtime, (p, Object.file content mtime) ∈ entries → content.length < 2 ^ 63

namespace Tree

variable (tree : Tree) {p q : String}

theorem parent_dir (under : Under p q) (there : tree.find q ≠ none) : tree.find p = some .dir := by
  obtain ⟨object, found⟩ := Option.ne_none_iff_exists'.mp there
  have member := tree.find_eq_some_iff.mp found
  obtain ⟨rest, split⟩ := under
  have slash : q.toList[p.toList.length]? = some '/' := by
    simp [← split]
  have inside : p.toList.length < q.toList.length := by
    simp [← split]
  have parent := tree.parents (q, object) member _ inside slash
  have prefix_ : q.toList.take p.toList.length = p.toList := by
    simp [← split]
  rw [prefix_, String.ofList_toList] at parent
  exact tree.find_eq_some_iff.mpr parent

end Tree

end Rootfs
