import WolfStack.Rootfs.Manifest

/-! One round of whole-file replication, after `wolfha/mod.rs`: the changed paths are
archived on the primary and extracted on the replica, which then deletes what the
primary does not have. -/

namespace Rootfs

/-- `tar_paths`: the objects at the given paths, each with its path. -/
def tarPaths (primary : Files) (paths : List String) : List (String × Object) :=
  paths.filterMap fun p => (primary.find p).map fun object => (p, object)

/-- Extraction of one member replaces what stands at its path. A directory that is there
stays. -/
def extractOne (files : Files) : String × Object → Files
  | (p, .dir) => if files.find p = some .dir then files else files.put p .dir
  | (p, object) => (files.removeDirAll p).put p object

def untarIntoRootfs (files : Files) (archive : List (String × Object)) : Files := archive.foldl extractOne files

/-- One turn of the deletion loop, which counts what it removes. -/
def deleteOne (state : Files × Nat) (d : String) : Files × Nat :=
  match state.1.find d with
  | none => state
  | some .dir => (state.1.removeDirAll d, state.2 + 1)
  | some _ => (state.1.removeFile d, state.2 + 1)

inductive Refused where
  | running
  | unsafeDeletion (path : String)
deriving DecidableEq

def applyDelta (running : Bool) (replica : Files) (archive : List (String × Object)) (deletions : List String) :
    Except Refused (Files × Nat) :=
  if running then .error .running
  else match deletions.find? fun d => !isSafeRelPath d with
    | some d => .error (.unsafeDeletion d)
    | none => .ok ((deletions.mergeSort deletionOrder).foldl deleteOne (untarIntoRootfs replica archive, 0))

def syncDiff (primary replica : Files) : List String × List String :=
  manifestDiff (buildManifest primary) (buildManifest replica)

def syncWhole (primary replica : Files) : Except Refused (Files × Nat) :=
  applyDelta false replica (tarPaths primary (syncDiff primary replica).1) (syncDiff primary replica).2

theorem nodup_paths_buildManifest (files : Files) : ((buildManifest files).map (·.p)).Nodup := by
  have paths : (buildManifest files).map (·.p) = (files.entries.map fun entry => entry.1).filter (listed ·) := by
    rw [buildManifest]
    induction files.entries with
    | nil => rfl
    | cons entry rest ih =>
      by_cases shown : listed entry.1 <;> simp [shown, ih]
  rw [paths]
  exact files.distinct.filter _

theorem perm_iff_entry (left right : Files) :
    (buildManifest left).Perm (buildManifest right) ↔ ∀ p, left.entry p = right.entry p := by
  rw [List.perm_ext_iff_of_nodup (nodup_paths_buildManifest left).of_map (nodup_paths_buildManifest right).of_map]
  constructor
  · intro same p
    cases held : left.entry p with
    | none =>
      cases found : right.entry p with
      | none => rfl
      | some entry =>
        obtain rfl := entry_p found
        have member := (same entry).mpr (mem_buildManifest_iff_entry.mpr found)
        rw [mem_buildManifest_iff_entry, held] at member
        cases member
    | some entry =>
      obtain rfl := entry_p held
      exact (mem_buildManifest_iff_entry.mp ((same entry).mp (mem_buildManifest_iff_entry.mpr held))).symm
  · intro same entry
    rw [mem_buildManifest_iff_entry, mem_buildManifest_iff_entry, same]

theorem not_flip_of_entry {primary replica : Files} {p : String} (same : replica.entry p = primary.entry p) :
    ¬Flip primary replica p := by
  rintro ⟨shown, object, was, found, held, kinds⟩
  simp only [Files.entry, shown, if_true, found, held, Option.map_some, Option.some.injEq] at same
  exact kinds (by rw [← describe_k p was, same, describe_k])

theorem manifestDiff_eq_nil {primary replica : Files} (same : ∀ p, replica.entry p = primary.entry p) :
    manifestDiff (buildManifest primary) (buildManifest replica) = ([], []) := by
  apply Prod.ext
  · refine List.eq_nil_iff_forall_not_mem.mpr fun p member => ?_
    exact (mem_changed.mp member).2 (same p)
  · refine List.eq_nil_iff_forall_not_mem.mpr fun p member => ?_
    rcases mem_deletions.mp member with flip | ⟨absent, there⟩
    · exact not_flip_of_entry (same p) flip
    · exact there ((same p).trans absent)

section

variable {primary replica : Tree} {files : Files} {changed deletions : List String} {p q : String}

def Known (primary replica : Tree) (files : Files) : Prop :=
  ∀ q, files.find q ≠ none → primary.find q ≠ none ∨ replica.find q ≠ none

theorem nothing_below (known : Known primary replica files) (level : ¬Flip primary.toFiles replica.toFiles p)
    (shown : listed p) {object : Object} (found : primary.find p = some object) (solid : object ≠ .dir)
    (under : Under p q) : files.find q = none := by
  by_contra there
  rcases known q there with own | theirs
  · have above := primary.parent_dir under own
    rw [found] at above
    exact solid (Option.some.inj above)
  · have above := replica.parent_dir under theirs
    refine level ⟨shown, object, .dir, found, above, fun kinds => solid ?_⟩
    cases object <;> first | rfl | cases kinds

theorem find_extractOne (known : Known primary replica files) (level : ¬Flip primary.toFiles replica.toFiles p)
    (shown : listed p) {object : Object} (found : primary.find p = some object) :
    (extractOne files (p, object)).find q = if q = p then some object else files.find q := by
  have replaced (solid : object ≠ .dir) : ((files.removeDirAll p).put p object).find q =
      if q = p then some object else files.find q := by
    rw [Files.find_put, Files.find_removeDirAll]
    by_cases same : q = p
    · rw [if_pos same, if_pos same]
    · rw [if_neg same, if_neg same]
      split
      · rename_i gone
        exact (nothing_below known level shown found solid (gone.resolve_left same)).symm
      · rfl
  cases object with
  | dir =>
    rw [extractOne]
    split
    · rename_i there
      by_cases same : q = p
      · rw [if_pos same, same, there]
      · rw [if_neg same]
    · rw [Files.find_put]
  | file content mtime => exact replaced nofun
  | symlink target => exact replaced nofun
  | other => exact replaced nofun

theorem known_extract {after : Files} (known : Known primary replica files) {object : Object}
    (found : primary.find p = some object) (step : ∀ q, after.find q = if q = p then some object else files.find q) :
    Known primary replica after := by
  intro q there
  rw [step] at there
  by_cases same : q = p
  · left
    rw [same, found]
    nofun
  · rw [if_neg same] at there
    exact known q there

theorem find_untar (known : Known primary replica files) (level : ∀ p, ¬Flip primary.toFiles replica.toFiles p)
    (archived : ∀ p ∈ changed, listed p ∧ primary.find p ≠ none) :
    (untarIntoRootfs files (tarPaths primary.toFiles changed)).find q =
      if q ∈ changed then primary.find q else files.find q := by
  induction changed generalizing files with
  | nil => simp [untarIntoRootfs, tarPaths]
  | cons p rest ih =>
    obtain ⟨shown, there⟩ := archived p List.mem_cons_self
    obtain ⟨object, found⟩ := Option.ne_none_iff_exists'.mp there
    have step (q : String) := find_extractOne (q := q) known (level p) shown found
    have later := ih (known_extract known found step) fun p member => archived p (List.mem_cons_of_mem _ member)
    have first : tarPaths primary.toFiles (p :: rest) = (p, object) :: tarPaths primary.toFiles rest := by
      simp [tarPaths, found]
    rw [untarIntoRootfs, first, List.foldl_cons]
    rw [untarIntoRootfs] at later
    rw [later, step]
    by_cases more : q ∈ rest
    · simp [more]
    · by_cases same : q = p
      · simp [same, found]
      · simp [more, same]

theorem deleteOne_keeps (state : Files × Nat) {d q : String} (apart : q ≠ d ∧ ¬Under d q) :
    (deleteOne state d).1.find q = state.1.find q := by
  rw [deleteOne]
  split
  · rfl
  · rw [Files.find_removeDirAll, if_neg (by simp [apart])]
  · rw [Files.find_removeFile, if_neg apart.1]

theorem deleteOne_gone (state : Files × Nat) (d : String) : (deleteOne state d).1.find d = none := by
  rw [deleteOne]
  split
  · rename_i missing
    exact missing
  · rw [Files.find_removeDirAll, if_pos (.inl rfl)]
  · rw [Files.find_removeFile, if_pos rfl]

theorem deleteOne_absent (state : Files × Nat) {d q : String} (absent : state.1.find q = none) :
    (deleteOne state d).1.find q = none := by
  rw [deleteOne]
  split
  · exact absent
  · rw [Files.find_removeDirAll, absent, ite_self]
  · rw [Files.find_removeFile, absent, ite_self]

theorem delete_keeps (state : Files × Nat) (apart : ∀ d ∈ deletions, q ≠ d ∧ ¬Under d q) :
    (deletions.foldl deleteOne state).1.find q = state.1.find q := by
  induction deletions generalizing state with
  | nil => rfl
  | cons d rest ih =>
    rw [List.foldl_cons, ih _ fun other member => apart other (List.mem_cons_of_mem d member)]
    exact deleteOne_keeps state (apart d List.mem_cons_self)

theorem delete_absent (state : Files × Nat) (absent : state.1.find q = none) :
    (deletions.foldl deleteOne state).1.find q = none := by
  induction deletions generalizing state with
  | nil => exact absent
  | cons d rest ih => exact ih _ (deleteOne_absent state absent)

theorem delete_gone (state : Files × Nat) (deleted : q ∈ deletions) :
    (deletions.foldl deleteOne state).1.find q = none := by
  induction deletions generalizing state with
  | nil => cases deleted
  | cons d rest ih =>
    rw [List.foldl_cons]
    rcases List.mem_cons.mp deleted with rfl | later
    · exact delete_absent _ (deleteOne_gone state q)
    · exact ih _ later

theorem deletions_safe : (syncDiff primary.toFiles replica.toFiles).2.find?
    (fun d => !isSafeRelPath d) = none := by
  refine List.find?_eq_none.mpr fun d member => ?_
  have there : replica.find d ≠ none := by
    rcases mem_deletions.mp member with ⟨-, object, was, -, held, -⟩ | ⟨-, listed_⟩
    · rw [held]
      nofun
    · intro absent
      simp [Files.entry, absent] at listed_
  obtain ⟨object, held⟩ := Option.ne_none_iff_exists'.mp there
  have safe := replica.safe _ (replica.find_eq_some_iff.mp held)
  simpa using safe

/-- Without flips, a round's deletions leave the paths of the primary alone and clear
every other listed path of the replica. -/
theorem entry_deleted (known : Known primary replica files) (level : ∀ p, ¬Flip primary.toFiles replica.toFiles p)
    (deleted : Nat) (p : String) :
    (((syncDiff primary.toFiles replica.toFiles).2.mergeSort deletionOrder).foldl
      deleteOne (files, deleted)).1.entry p = if primary.entry p = none then none else files.entry p := by
  by_cases shown : listed p
  swap
  · simp [Files.entry, shown]
  have missing {d : String} (member : d ∈ ((syncDiff primary.toFiles replica.toFiles).2.mergeSort deletionOrder)) : primary.find d = none := by
    rcases mem_deletions.mp (List.mem_mergeSort.mp member) with flip | ⟨absent, there⟩
    · exact absurd flip (level d)
    · have visible : listed d := by
        by_contra hidden
        simp [Files.entry, hidden] at there
      simpa [Files.entry, visible] using absent
  by_cases own : primary.find p = none
  · have unlisted : primary.entry p = none := by simp [Files.entry, own]
    rw [if_pos unlisted]
    have gone : (((syncDiff primary.toFiles replica.toFiles).2.mergeSort
        deletionOrder).foldl deleteOne (files, deleted)).1.find p = none := by
      by_cases theirs : replica.find p = none
      · refine delete_absent _ ?_
        by_contra there
        exact (known p there).elim (· own) (· theirs)
      · refine delete_gone _ (List.mem_mergeSort.mpr (mem_deletions.mpr (.inr ⟨unlisted, ?_⟩)))
        simpa [Files.entry, shown] using theirs
    simp [Files.entry, gone]
  · have held : primary.entry p ≠ none := by simpa [Files.entry, shown] using own
    rw [if_neg held, Files.entry, Files.entry, delete_keeps]
    intro d member
    have absent := missing member
    refine ⟨fun same => own (same ▸ absent), fun under => ?_⟩
    rw [primary.parent_dir under own] at absent
    cases absent

theorem changed_archived : ∀ p ∈ (syncDiff primary.toFiles replica.toFiles).1, listed p ∧ primary.find p ≠ none := by
  intro p member
  obtain ⟨there, -⟩ := mem_changed.mp member
  simp only [Files.entry, ne_eq, ite_eq_right_iff, Classical.not_imp, Option.map_eq_none_iff] at there
  exact there

theorem entry_applied (known : Known primary replica files) (level : ∀ p, ¬Flip primary.toFiles replica.toFiles p)
    (archived : ∀ p ∈ changed, listed p ∧ primary.find p ≠ none) (p : String) :
    ((((syncDiff primary.toFiles replica.toFiles).2.mergeSort deletionOrder).foldl deleteOne
      (untarIntoRootfs files (tarPaths primary.toFiles changed), 0)).1.entry p) =
      if primary.entry p = none then none else if p ∈ changed then primary.entry p else files.entry p := by
  have find (q : String) := find_untar (q := q) known level archived
  have extracted : Known primary replica (untarIntoRootfs files (tarPaths primary.toFiles changed)) := by
    intro q there
    rw [find] at there
    split at there
    · exact .inl there
    · exact known q there
  rw [entry_deleted extracted level, Files.entry.eq_def (untarIntoRootfs _ _), find]
  by_cases shown : listed p <;> by_cases member : p ∈ changed <;> simp [Files.entry, shown, member]

theorem applyDelta_ok (archive : List (String × Object)) :
    applyDelta false files archive (syncDiff primary.toFiles replica.toFiles).2 =
      .ok (((syncDiff primary.toFiles replica.toFiles).2.mergeSort deletionOrder).foldl deleteOne
        (untarIntoRootfs files archive, 0)) := by
  rw [applyDelta, if_neg (by decide), deletions_safe]

end

/-- A round leaves the primary's manifest, and nothing for the next round, exactly when
no listed path is of one kind on the primary and of another on the replica. -/
theorem converges_iff (primary replica : Tree) :
    (∃ after deleted, syncWhole primary.toFiles replica.toFiles = .ok (after, deleted) ∧
      (buildManifest after).Perm (buildManifest primary.toFiles) ∧
      manifestDiff (buildManifest primary.toFiles) (buildManifest after) = ([], [])) ↔
    ∀ p, ¬Flip primary.toFiles replica.toFiles p := by
  constructor
  · rintro ⟨after, deleted, synced, same, -⟩ p flip
    rw [syncWhole, applyDelta_ok, Except.ok.injEq] at synced
    have gone : after.find p = none := by
      have first := congrArg Prod.fst synced
      dsimp only at first
      rw [← first]
      exact delete_gone _ (List.mem_mergeSort.mpr (mem_deletions.mpr (.inl flip)))
    have entry := (perm_iff_entry after primary.toFiles).mp same p
    obtain ⟨shown, object, was, found, -, -⟩ := flip
    simp [Files.entry, shown, gone, found] at entry
  · intro level
    have known : Known primary replica replica.toFiles := fun q there => .inr there
    have same (p : String) : (((syncDiff primary.toFiles replica.toFiles).2.mergeSort deletionOrder).foldl deleteOne
        (untarIntoRootfs replica.toFiles (tarPaths primary.toFiles (syncDiff primary.toFiles replica.toFiles).1), 0)).1.entry p =
        primary.entry p := by
      rw [entry_applied known level changed_archived]
      split
      · rename_i unlisted
        exact unlisted.symm
      · rename_i held
        split
        · rfl
        · rename_i unchanged
          by_contra differs
          exact unchanged (mem_changed.mpr ⟨held, differs⟩)
    exact ⟨_, _, applyDelta_ok _, (perm_iff_entry _ _).mpr same, manifestDiff_eq_nil same⟩

def directoryTree : Tree where
  entries := [("data", .dir)]
  distinct := by decide
  safe := by decide +kernel
  parents := by decide +kernel
  sizes := by simp

def fileTree : Tree where
  entries := [("data", .file [1] 1790000000)]
  distinct := by decide
  safe := by decide +kernel
  parents := by decide +kernel
  sizes := by
    intro p content mtime member
    simp only [List.mem_singleton, Prod.mk.injEq, Object.file.injEq] at member
    obtain ⟨-, rfl, -⟩ := member
    decide

/-- A file that became a directory is extracted as one and then deleted. -/
theorem flip_lost :
    (syncWhole directoryTree.toFiles fileTree.toFiles).map (fun after => buildManifest after.1) = .ok [] ∧
      buildManifest directoryTree.toFiles = [⟨"data", .d, 0, 0, ""⟩] := by
  decide +kernel

end Rootfs
