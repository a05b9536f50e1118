import WolfStack.Rootfs.BlockDeltas

/-! What installing a bundle does to the replica's files: each step touches its target
and the path beside it that the rebuilt file is first written to. -/

namespace Rootfs
open Replication Wire

theorem tempPath_ne (p : String) : tempPath p ≠ p := by
  intro same
  have size := congrArg (fun text => text.toList.length) same
  simp [tempPath] at size

theorem tempPath_inj {p q : String} (same : tempPath p = tempPath q) : p = q := by
  have chars := congrArg String.toList same
  simp only [tempPath, String.toList_append] at chars
  exact String.toList_inj.mp (List.append_cancel_right chars)

section

variable {clock : String → Int} {files after : Files} {item : FileDelta} {items : List FileDelta} {failed : Option Failed}

def Writable (files : Files) (p : String) : Prop := ∀ object, files.find p = some object → object.kind = .f

structure Installed (clock : String → Int) (files after : Files) (item : FileDelta) : Prop where
  rebuilt : ∃ base mtime out, files.find item.path = some (.file base mtime) ∧
    Replication.applyDelta item.path base blockSize item.ops = .ok out ∧
    after.find item.path = some (.file out (clock item.path))
  writable : Writable files (tempPath item.path)
  renamed : after.find (tempPath item.path) = none
  frame : ∀ q, q ≠ item.path → q ≠ tempPath item.path → after.find q = files.find q

theorem installed_of_ok (done : installReconstructedFile clock files item = (after, none)) :
    Installed clock files after item := by
  rw [installReconstructedFile] at done
  split at done
  · rename_i base mtime found
    split at done
    · cases done
    · cases done
    · cases done
    · rename_i notDir notLink notOther
      split at done
      · cases done
      · rename_i out applied
        cases done
        refine ⟨⟨base, mtime, out, found, applied, ?_⟩, ?_, ?_, ?_⟩
        · rw [Files.find_put, if_pos rfl]
        · intro object held
          cases object with
          | file content mtime => rfl
          | dir => exact absurd held notDir
          | symlink target => exact absurd held (notLink target)
          | other => exact absurd held notOther
        · rw [Files.find_put, if_neg (tempPath_ne _), Files.find_removeFile, if_pos rfl]
        · intro q target beside
          rw [Files.find_put, if_neg target, Files.find_removeFile, if_neg beside]
  · cases done

theorem target_of_failed {text : Failed} (done : installReconstructedFile clock files item = (after, some text)) :
    after.find item.path = files.find item.path := by
  rw [installReconstructedFile] at done
  split at done
  · split at done
    · cases done
      rfl
    · cases done
      rfl
    · cases done
      rfl
    · split at done
      · cases done
        rw [Files.find_removeFile, if_neg (tempPath_ne _).symm]
      · cases done
  · cases done
    rfl

theorem frame_of_failed {text : Failed} (done : installReconstructedFile clock files item = (after, some text)) (q : String) :
    after.find q = files.find q ∨ after.find q = none := by
  rw [installReconstructedFile] at done
  split at done
  · split at done
    · cases done
      exact .inl rfl
    · cases done
      exact .inl rfl
    · cases done
      exact .inl rfl
    · split at done
      · cases done
        rw [Files.find_removeFile]
        split
        · exact .inr rfl
        · exact .inl rfl
      · cases done
  · cases done
    exact .inl rfl

theorem installAll_cons (done : installAll clock files (item :: items) = (after, failed)) :
    (∃ middle, Installed clock files middle item ∧ installAll clock middle items = (after, failed)) ∨
    failed ≠ none ∧ after.find item.path = files.find item.path ∧
      ∀ q, after.find q = files.find q ∨ after.find q = none := by
  rw [installAll] at done
  split at done
  · cases done
    exact .inr ⟨nofun, rfl, fun q => .inl rfl⟩
  · cases step : installReconstructedFile clock files item with
    | mk middle stop =>
      rw [step] at done
      cases stop with
      | none => exact .inl ⟨middle, installed_of_ok step, done⟩
      | some text =>
        cases done
        exact .inr ⟨nofun, target_of_failed step, frame_of_failed step⟩

theorem installAll_absent (done : installAll clock files items = (after, failed)) {q : String}
    (absent : files.find q = none) : after.find q = none := by
  induction items generalizing files with
  | nil =>
    cases done
    exact absent
  | cons item rest ih =>
    rcases installAll_cons done with ⟨middle, installed, later⟩ | ⟨-, -, kept⟩
    · refine ih later ?_
      obtain ⟨base, mtime, out, found, -, -⟩ := installed.rebuilt
      by_cases target : q = item.path
      · rw [← target, absent] at found
        cases found
      · by_cases beside : q = tempPath item.path
        · rw [beside, installed.renamed]
        · rw [installed.frame q target beside, absent]
    · rcases kept q with same | gone
      · rw [same, absent]
      · exact gone

theorem installAll_other (done : installAll clock files items = (after, failed)) {q : String}
    (apart : ∀ item ∈ items, item.path ≠ q) : after.find q = files.find q ∨ after.find q = none := by
  induction items generalizing files with
  | nil =>
    cases done
    exact .inl rfl
  | cons item rest ih =>
    rcases installAll_cons done with ⟨middle, installed, later⟩ | ⟨-, -, kept⟩
    · by_cases beside : q = tempPath item.path
      · right
        exact installAll_absent later (beside ▸ installed.renamed)
      · rcases ih later fun other member => apart other (List.mem_cons_of_mem item member) with same | gone
        · left
          rw [same, installed.frame q (apart item List.mem_cons_self).symm beside]
        · exact .inr gone
    · exact kept q

theorem installAll_failed (done : installAll clock files items = (after, failed)) (stopped : failed ≠ none)
    (distinct : (items.map (·.path)).Nodup) :
    ∃ item ∈ items, after.find item.path = files.find item.path ∨ after.find item.path = none := by
  induction items generalizing files with
  | nil =>
    cases done
    exact absurd rfl stopped
  | cons item rest ih =>
    rw [List.map_cons, List.nodup_cons] at distinct
    rcases installAll_cons done with ⟨middle, installed, later⟩ | ⟨-, target, -⟩
    · obtain ⟨other, member, stands⟩ := ih later distinct.2
      refine ⟨other, List.mem_cons_of_mem item member, ?_⟩
      have apart : other.path ≠ item.path := fun same => distinct.1 (same ▸ List.mem_map_of_mem member)
      rcases stands with same | gone
      · by_cases beside : other.path = tempPath item.path
        · right
          rw [same, beside, installed.renamed]
        · left
          rw [same, installed.frame _ apart beside]
      · exact .inr gone
    · exact ⟨item, List.mem_cons_self, .inl target⟩

/-- A run that succeeds found every temporary path free or a file, and left none there;
its targets carry the time of their writing, unless another step used them up. -/
theorem installAll_done (done : installAll clock files items = (after, none)) (distinct : (items.map (·.path)).Nodup) :
    ∀ item ∈ items, Writable files (tempPath item.path) ∧ after.find (tempPath item.path) = none ∧
      (after.find item.path = none ∨ ∃ out, after.find item.path = some (.file out (clock item.path))) := by
  induction items generalizing files with
  | nil => simp
  | cons item rest ih =>
    rw [List.map_cons, List.nodup_cons] at distinct
    rcases installAll_cons done with ⟨middle, installed, later⟩ | ⟨stopped, -, -⟩
    · obtain ⟨base, mtime, out, found, -, target⟩ := installed.rebuilt
      intro other member
      rcases List.mem_cons.mp member with rfl | member
      · refine ⟨installed.writable, installAll_absent later installed.renamed, ?_⟩
        have apart : ∀ more ∈ rest, more.path ≠ other.path :=
          fun more member same => distinct.1 (same ▸ List.mem_map_of_mem member)
        rcases installAll_other later apart with same | gone
        · exact .inr ⟨out, same.trans target⟩
        · exact .inl gone
      · obtain ⟨writable, gone, stands⟩ := ih later distinct.2 other member
        refine ⟨fun object held => ?_, gone, stands⟩
        by_cases replaced : tempPath other.path = item.path
        · rw [replaced, found] at held
          cases held
          rfl
        · have apart : tempPath other.path ≠ tempPath item.path :=
            fun same => distinct.1 (tempPath_inj same ▸ List.mem_map_of_mem member)
          exact writable object ((installed.frame _ replaced apart).trans held)
    · exact absurd rfl stopped

theorem install_ok {base out : Bytes} {mtime : Int} (found : files.find item.path = some (.file base mtime))
    (writable : Writable files (tempPath item.path))
    (applied : Replication.applyDelta item.path base blockSize item.ops = .ok out) :
    ∃ after, installReconstructedFile clock files item = (after, none) := by
  rw [installReconstructedFile, found]
  dsimp only
  split
  · rename_i held
    cases writable _ held
  · rename_i held
    cases writable _ held
  · rename_i held
    cases writable _ held
  · rw [applied]
    exact ⟨_, rfl⟩

def Rebuilt (files : Files) (item : FileDelta) (out : Bytes) : Prop :=
  ∃ base mtime, files.find item.path = some (.file base mtime) ∧
    Replication.applyDelta item.path base blockSize item.ops = .ok out

/-- When no step uses up another's target, all targets are rebuilt and the other paths
stay, except the temporary ones. -/
theorem installAll_ok (ready : ∀ item ∈ items, isSafeRelPath item.path ∧ ∃ out, Rebuilt files item out)
    (writable : ∀ item ∈ items, Writable files (tempPath item.path)) (distinct : (items.map (·.path)).Nodup)
    (apart : ∀ item ∈ items, ∀ other ∈ items, tempPath item.path ≠ other.path) :
    ∃ after, installAll clock files items = (after, none) ∧
      (∀ item ∈ items, ∃ out, Rebuilt files item out ∧ after.find item.path = some (.file out (clock item.path))) ∧
      ∀ q, (∀ item ∈ items, q ≠ item.path ∧ q ≠ tempPath item.path) → after.find q = files.find q := by
  induction items generalizing files with
  | nil => exact ⟨files, rfl, by simp, fun q _ => rfl⟩
  | cons item rest ih =>
    rw [List.map_cons, List.nodup_cons] at distinct
    have here := List.mem_cons_self (a := item) (l := rest)
    obtain ⟨safe, out, base, mtime, found, applied⟩ := ready item here
    obtain ⟨middle, step⟩ : ∃ middle, installReconstructedFile clock files item = (middle, none) :=
      install_ok found (writable item here) applied
    have installed := installed_of_ok step
    have differs {other : FileDelta} (member : other ∈ rest) : other.path ≠ item.path :=
      fun same => distinct.1 (same ▸ List.mem_map_of_mem member)
    have kept {other : FileDelta} (member : other ∈ rest) : middle.find other.path = files.find other.path :=
      installed.frame _ (differs member) (apart item here other (List.mem_cons_of_mem item member)).symm
    have later : ∀ other ∈ rest, isSafeRelPath other.path ∧ ∃ out, Rebuilt middle other out := by
      intro other member
      simp only [Rebuilt, kept member]
      exact ready other (List.mem_cons_of_mem item member)
    have open_ : ∀ other ∈ rest, Writable middle (tempPath other.path) := by
      intro other member object held
      have target : tempPath other.path ≠ item.path := apart other (List.mem_cons_of_mem item member) item here
      have beside : tempPath other.path ≠ tempPath item.path := fun same => differs member (tempPath_inj same)
      exact writable other (List.mem_cons_of_mem item member) object ((installed.frame _ target beside).symm.trans held)
    obtain ⟨after, done, targets, frame⟩ := ih later open_ distinct.2 fun one inside other member =>
      apart one (List.mem_cons_of_mem item inside) other (List.mem_cons_of_mem item member)
    refine ⟨after, ?_, ?_, ?_⟩
    · rw [installAll, safe, step]
      exact done
    · intro other member
      rcases List.mem_cons.mp member with rfl | member
      · have settled : after.find other.path = middle.find other.path := frame other.path fun more inside =>
          ⟨(differs inside).symm, (apart more (List.mem_cons_of_mem _ inside) other here).symm⟩
        obtain ⟨base, mtime, out, found, applied, target⟩ := installed.rebuilt
        exact ⟨out, ⟨base, mtime, found, applied⟩, settled.trans target⟩
      · obtain ⟨out, rebuilt, target⟩ := targets other member
        rw [Rebuilt, kept member] at rebuilt
        exact ⟨out, rebuilt, target⟩
    · intro q outside
      obtain ⟨target, beside⟩ := outside item here
      rw [frame q fun other member => outside other (List.mem_cons_of_mem item member), installed.frame q target beside]

end

end Rootfs
