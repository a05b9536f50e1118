import WolfStack.Rootfs.Files

/-! Manifests of a rootfs and their comparison, after `wolfha/mod.rs`. A manifest lists
what a walk of the rootfs comes by; two manifests agree on a path exactly when they hold
the same entry for it. -/

namespace Rootfs

inductive Kind where
  | f
  | d
  | l
  | o
deriving DecidableEq

structure ManifestEntry where
  p : String
  k : Kind
  s : Nat
  m : Int
  t : String
deriving DecidableEq

def Object.kind : Object → Kind
  | .file _ _ => .f
  | .dir => .d
  | .symlink _ => .l
  | .other => .o

def describe (p : String) : Object → ManifestEntry
  | .file content mtime => ⟨p, .f, content.length, mtime, ""⟩
  | .dir => ⟨p, .d, 0, 0, ""⟩
  | .symlink target => ⟨p, .l, 0, 0, target⟩
  | .other => ⟨p, .o, 0, 0, ""⟩

def syncExcludeTop : List String := ["proc", "sys", "dev"]

/-- The paths that the walk lists: none with a line break, and nothing inside the
excluded directories at the top. -/
def listed (p : String) : Bool :=
  p ≠ "" ∧ '\n' ∉ p.toList ∧ ¬('/' ∈ p.toList ∧ String.ofList (p.toList.takeWhile (· ≠ '/')) ∈ syncExcludeTop)

def buildManifest (files : Files) : List ManifestEntry :=
  files.entries.filterMap fun (p, object) => if listed p then some (describe p object) else none

/-- `remote_map.get`. -/
def remoteEntry (remote : List ManifestEntry) (p : String) : Option ManifestEntry := remote.reverse.find? fun re => re.p = p

def ships (remote : List ManifestEntry) (le : ManifestEntry) : Bool :=
  match remoteEntry remote le.p with
  | none => true
  | some re =>
    if re.k ≠ le.k then true
    else match le.k with
      | .f => le.s ≠ re.s ∨ le.m ≠ re.m
      | .l => le.t ≠ re.t
      | _ => false

def flips (remote : List ManifestEntry) (le : ManifestEntry) : Bool :=
  match remoteEntry remote le.p with
  | none => false
  | some re => re.k ≠ le.k

/-- Children before parents: longer paths first. -/
def deletionOrder (a b : String) : Bool := b.utf8ByteSize < a.utf8ByteSize ∨ b.utf8ByteSize = a.utf8ByteSize ∧ b ≤ a

/-- `Vec::dedup`. -/
def dedup : List String → List String
  | a :: b :: rest => if a = b then dedup (b :: rest) else a :: dedup (b :: rest)
  | rest => rest

def manifestDiff (local_ remote : List ManifestEntry) : List String × List String :=
  ((local_.filter (ships remote)).map (·.p),
    dedup (((local_.filter (flips remote)).map (·.p) ++
      (remote.filter fun re => re.p ∉ local_.map (·.p)).map (·.p)).mergeSort deletionOrder))

@[simp] theorem describe_p (p : String) (object : Object) : (describe p object).p = p := by
  cases object <;> rfl

@[simp] theorem describe_k (p : String) (object : Object) : (describe p object).k = object.kind := by
  cases object <;> rfl

theorem mem_buildManifest {files : Files} {entry : ManifestEntry} :
    entry ∈ buildManifest files ↔ listed entry.p ∧ ∃ object, files.find entry.p = some object ∧ describe entry.p object = entry := by
  simp only [buildManifest, List.mem_filterMap, Option.ite_none_right_eq_some, Option.some.injEq, Prod.exists]
  constructor
  · rintro ⟨p, object, member, shown, rfl⟩
    rw [describe_p]
    exact ⟨shown, object, files.find_eq_some_iff.mpr member, rfl⟩
  · rintro ⟨shown, object, found, same⟩
    exact ⟨entry.p, object, files.find_eq_some_iff.mp found, shown, same⟩

def Files.entry (files : Files) (p : String) : Option ManifestEntry :=
  if listed p then (files.find p).map (describe p) else none

theorem mem_buildManifest_iff_entry {files : Files} {entry : ManifestEntry} :
    entry ∈ buildManifest files ↔ files.entry entry.p = some entry := by
  rw [mem_buildManifest, Files.entry]
  by_cases shown : listed entry.p <;> simp [shown]

theorem entry_p {files : Files} {p : String} {entry : ManifestEntry} (held : files.entry p = some entry) : entry.p = p := by
  simp only [Files.entry, Option.ite_none_right_eq_some, Option.map_eq_some_iff] at held
  obtain ⟨-, object, -, rfl⟩ := held
  exact describe_p p object

theorem remoteEntry_buildManifest (files : Files) (p : String) : remoteEntry (buildManifest files) p = files.entry p := by
  rw [remoteEntry]
  cases found : (buildManifest files).reverse.find? fun re => re.p = p with
  | none =>
    cases held : files.entry p with
    | none => rfl
    | some entry =>
      have same := entry_p held
      have member : entry ∈ buildManifest files := mem_buildManifest_iff_entry.mpr (same ▸ held)
      have missed := List.find?_eq_none.mp found entry (List.mem_reverse.mpr member)
      simp [same] at missed
  | some entry =>
    have same : entry.p = p := by simpa using List.find?_some found
    have member := List.mem_reverse.mp (List.mem_of_find?_eq_some found)
    rw [← same, mem_buildManifest_iff_entry.mp member]

theorem ships_iff {primary replica : Files} {le : ManifestEntry} (member : le ∈ buildManifest primary) :
    ships (buildManifest replica) le ↔ replica.entry le.p ≠ some le := by
  obtain ⟨shown, object, -, same⟩ := mem_buildManifest.mp member
  rw [ships, remoteEntry_buildManifest, Files.entry, if_pos shown]
  cases replica.find le.p with
  | none => simp
  | some was =>
    rw [← same]
    cases object with
    | file content mtime =>
      cases was with
      | file old oldMtime =>
        simp [describe]
        refine decide_eq_true_iff.trans ?_
        omega
      | _ => simp [describe]
    | symlink target =>
      cases was with
      | symlink old =>
        simp [describe]
        exact decide_eq_true_iff.trans (not_congr eq_comm)
      | _ => simp [describe]
    | _ => cases was <;> simp [describe]

theorem flips_iff {primary replica : Files} {le : ManifestEntry} (member : le ∈ buildManifest primary) :
    flips (buildManifest replica) le ↔ ∃ was, replica.find le.p = some was ∧ was.kind ≠ le.k := by
  obtain ⟨shown, object, -, same⟩ := mem_buildManifest.mp member
  rw [flips, remoteEntry_buildManifest, Files.entry, if_pos shown]
  cases replica.find le.p <;> simp

theorem mem_dedup {paths : List String} {p : String} : p ∈ dedup paths ↔ p ∈ paths := by
  fun_induction dedup paths with
  | case1 a rest ih => simp [ih]
  | case2 a b rest differs ih => simp [ih]
  | case3 rest => rfl

def Flip (primary replica : Files) (p : String) : Prop :=
  listed p ∧ ∃ object was, primary.find p = some object ∧ replica.find p = some was ∧ was.kind ≠ object.kind

section

variable {primary replica : Files} {p : String}

theorem mem_changed : p ∈ (manifestDiff (buildManifest primary) (buildManifest replica)).1 ↔
    primary.entry p ≠ none ∧ replica.entry p ≠ primary.entry p := by
  simp only [manifestDiff, List.mem_map, List.mem_filter]
  constructor
  · rintro ⟨entry, ⟨member, shipped⟩, rfl⟩
    have held := mem_buildManifest_iff_entry.mp member
    rw [held]
    exact ⟨nofun, (ships_iff member).mp shipped⟩
  · rintro ⟨there, differs⟩
    obtain ⟨entry, held⟩ := Option.ne_none_iff_exists'.mp there
    obtain rfl := entry_p held
    have member := mem_buildManifest_iff_entry.mpr held
    rw [held] at differs
    exact ⟨entry, ⟨member, (ships_iff member).mpr differs⟩, rfl⟩

theorem mem_deletions : p ∈ (manifestDiff (buildManifest primary) (buildManifest replica)).2 ↔
    Flip primary replica p ∨ primary.entry p = none ∧ replica.entry p ≠ none := by
  simp only [manifestDiff, mem_dedup, List.mem_mergeSort, List.mem_append, List.mem_map, List.mem_filter]
  apply or_congr
  · constructor
    · rintro ⟨entry, ⟨member, flipped⟩, rfl⟩
      obtain ⟨shown, object, found, same⟩ := mem_buildManifest.mp member
      obtain ⟨was, held, kinds⟩ := (flips_iff member).mp flipped
      refine ⟨shown, object, was, found, held, ?_⟩
      rwa [← same, describe_k] at kinds
    · rintro ⟨shown, object, was, found, held, kinds⟩
      have member : describe p object ∈ buildManifest primary := by
        rw [mem_buildManifest, describe_p]
        exact ⟨shown, object, found, rfl⟩
      refine ⟨describe p object, ⟨member, (flips_iff member).mpr ⟨was, ?_, ?_⟩⟩, describe_p p object⟩
      · rwa [describe_p]
      · rwa [describe_k]
  · constructor
    · rintro ⟨entry, ⟨member, absent⟩, rfl⟩
      have held := mem_buildManifest_iff_entry.mp member
      refine ⟨?_, by rw [held]; nofun⟩
      cases found : primary.entry entry.p with
      | none => rfl
      | some own =>
        have same := entry_p found
        have listed_ := mem_buildManifest_iff_entry.mpr (same.symm ▸ found)
        simp only [not_exists, not_and, decide_eq_true_eq] at absent
        exact absurd same (absent own listed_)
    · rintro ⟨absent, there⟩
      obtain ⟨entry, held⟩ := Option.ne_none_iff_exists'.mp there
      obtain rfl := entry_p held
      refine ⟨entry, ⟨mem_buildManifest_iff_entry.mpr held, ?_⟩, rfl⟩
      simp only [not_exists, not_and, decide_eq_true_eq]
      intro own member same
      have found := mem_buildManifest_iff_entry.mp member
      rw [same, absent] at found
      cases found

end

end Rootfs
