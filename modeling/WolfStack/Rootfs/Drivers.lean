import WolfStack.Rootfs.Install
import Mathlib.Data.List.TakeWhile

/-! Rounds of the two drivers compared: a round of whole files leaves the primary's
manifest, and a round of block deltas does so exactly when the files it rebuilds come by
the primary's modification times and no rebuilding costs another file. -/

namespace Rootfs
open Replication Wire

section

variable {conditions : Conditions} {primary replica : Tree} {files : Files} {item : FileDelta}

theorem nodup_changed (primary replica : Files) : (syncDiff primary replica).1.Nodup :=
  (nodup_paths_buildManifest primary).sublist (List.filter_sublist.map _)

theorem nodup_blockItems (primary replica : Files) : ((blockItems conditions primary replica).map (·.path)).Nodup := by
  rw [blockItems]
  split
  · have paths (sigs : String → Option Bytes) (rels : List String) :
        ((rels.filterMap (blockDelta conditions primary sigs)).map (·.path)).Sublist rels := by
      induction rels with
      | nil => simp
      | cons rel rest ih =>
        cases encoded : blockDelta conditions primary sigs rel with
        | none =>
          rw [List.filterMap_cons_none encoded]
          exact ih.cons rel
        | some item =>
          rw [List.filterMap_cons_some encoded, List.map_cons, blockDelta_path encoded]
          exact ih.cons_cons rel
    exact (nodup_changed primary replica).sublist ((paths _ _).trans List.filter_sublist)
  · simp

structure Shipped (primary replica : Files) (item : FileDelta) : Prop where
  changed : item.path ∈ (syncDiff primary replica).1
  safe : isSafeRelPath item.path
  sized : ∃ content mtime out, primary.find item.path = some (.file content mtime) ∧
    Rebuilt replica item out ∧ out.length = content.length

theorem decoded_rebuilds {base content : Bytes} {sig : FileSignature} (path : String) (word : base.length < 2 ^ 64)
    (decoded : decodeSignatures (encodeSignatures (signatures conditions.strongHash base blockSize)) = .ok sig) :
    sig.blockSize = blockSize ∧ Rebuilds (fun left right => left.length = right.length) path base sig
      (deltaFromBytes conditions.strongHash content sig) content := by
  have describes := decoded_describes conditions.strongHash (by decide) (by decide) word decoded
  have congruent : Congruent (fun left right : Bytes => left.length = right.length) :=
    ⟨fun _ => rfl, fun left right => by rw [List.length_append, List.length_append, left, right]⟩
  refine ⟨?_, deltaFromBytes_rebuilds congruent describes fun _ _ _ _ same _ => same⟩
  have baseLen : (signatures conditions.strongHash base blockSize).baseLen = base.length :=
    sum_readBlocks blockSize base (by decide)
  rw [decode_encodeSignatures _ (show 0 < blockSize by decide) (show blockSize < 2 ^ 32 by decide) (baseLen ▸ word),
    Except.ok.injEq] at decoded
  rw [← decoded]
  rfl

theorem rebuilt_size {base content : Bytes} {sig : FileSignature} (path : String) (word : base.length < 2 ^ 64)
    (decoded : decodeSignatures (encodeSignatures (signatures conditions.strongHash base blockSize)) = .ok sig) :
    ∃ out, Replication.applyDelta path base blockSize (deltaFromBytes conditions.strongHash content sig) = .ok out ∧
      out.length = content.length := by
  obtain ⟨size, rebuilds⟩ := @decoded_rebuilds conditions base content sig path word decoded
  obtain ⟨out, applied, same⟩ := rebuilds.applied
  rw [size] at applied
  exact ⟨out, applied, same.symm⟩

theorem shipped_of_mem (level : ∀ p, ¬Flip primary.toFiles replica.toFiles p)
    (member : item ∈ blockItems conditions primary.toFiles replica.toFiles) :
    Shipped primary.toFiles replica.toFiles item := by
  rw [blockItems] at member
  split at member
  swap
  · cases member
  obtain ⟨rel, sized, encoded⟩ := List.mem_filterMap.mp member
  have changed := (List.mem_filter.mp sized).1
  obtain ⟨shown, there⟩ := changed_archived _ changed
  obtain ⟨object, found⟩ := Option.ne_none_iff_exists'.mp there
  obtain ⟨raw, sig, data, answer, decoded, read, rfl, -⟩ := blockDelta_some encoded
  obtain ⟨safe, base, mtime, held, rfl⟩ := wolfhaSignature_some answer
  have kinds : object.kind = .f := by
    by_contra differs
    exact level rel ⟨shown, object, .file base mtime, found, held, fun same => differs same.symm⟩
  cases object with
  | file content time =>
    rw [readThrough, found] at read
    cases read
    have word : base.length < 2 ^ 64 :=
      Nat.lt_trans (replica.sizes rel base mtime (replica.find_eq_some_iff.mp held)) (by decide)
    obtain ⟨out, applied, size⟩ := rebuilt_size rel word decoded
    exact ⟨changed, safe, data, time, out, found, ⟨base, mtime, held, applied⟩, size⟩
  | _ => cases kinds

theorem entry_of_archive (known : Known primary replica files) (level : ∀ p, ¬Flip primary.toFiles replica.toFiles p)
    {archived : List String} (within : ∀ p ∈ archived, p ∈ (syncDiff primary.toFiles replica.toFiles).1) :
    ∃ after, applyArchive files
        (if archived = [] ∧ (syncDiff primary.toFiles replica.toFiles).2 = [] then none
          else some (tarPaths primary.toFiles archived))
        (syncDiff primary.toFiles replica.toFiles).2 = (after, none) ∧
      ∀ p, after.entry p = if primary.entry p = none then none else if p ∈ archived then primary.entry p else files.entry p := by
  have applied := entry_applied known level fun p member => changed_archived p (within p member)
  split
  · rename_i quiet
    obtain ⟨rfl, none_⟩ := quiet
    rw [none_, List.mergeSort_nil] at applied
    exact ⟨files, rfl, applied⟩
  · rw [applyArchive, applyDelta_ok]
    exact ⟨_, rfl, applied⟩

theorem entry_whole (level : ∀ p, ¬Flip primary.toFiles replica.toFiles p) (p : String) :
    (syncRound conditions .fileManifest primary.toFiles replica.toFiles).1.entry p = primary.entry p := by
  have known : Known primary replica replica.toFiles := fun q there => .inr there
  obtain ⟨after, done, entries⟩ := entry_of_archive known level fun p member => member
  have shipped : ship conditions primary.toFiles replica.toFiles .fileManifest =
      { blocks := none, deletions := (syncDiff primary.toFiles replica.toFiles).2
        archive := if (syncDiff primary.toFiles replica.toFiles).1 = [] ∧ (syncDiff primary.toFiles replica.toFiles).2 = []
          then none else some (tarPaths primary.toFiles (syncDiff primary.toFiles replica.toFiles).1) } := by
    rfl
  rw [syncRound, shipped, wolfhaApplyDelta, applyBlocks]
  dsimp only
  rw [done, entries]
  split
  · rename_i unlisted
    exact unlisted.symm
  · rename_i held
    split
    · rfl
    · rename_i unchanged
      by_contra differs
      exact unchanged (mem_changed.mpr ⟨held, differs⟩)

/-! ### Agreement -/

def Agree (conditions : Conditions) (primary replica : Files) : Prop :=
  (buildManifest (syncRound conditions .rollingDelta primary replica).1).Perm
    (buildManifest (syncRound conditions .fileManifest primary replica).1) ∧
  syncDiff primary (syncRound conditions .rollingDelta primary replica).1 = ([], []) ∧
  syncDiff primary (syncRound conditions .fileManifest primary replica).1 = ([], [])

def Timely (conditions : Conditions) (primary : Files) (item : FileDelta) : Prop :=
  ∃ content, primary.find item.path = some (.file content (conditions.clock item.path))

/-- What stands where the rebuilt file is first written is a file, and one that the
primary does not have or that is archived. -/
structure Spared (conditions : Conditions) (primary replica : Files) (item : FileDelta) : Prop where
  writable : Writable replica (tempPath item.path)
  restored : replica.find (tempPath item.path) ≠ none → primary.find (tempPath item.path) ≠ none →
    tempPath item.path ∈ (syncDiff primary replica).1 ∧
      tempPath item.path ∉ (blockItems conditions primary replica).map (·.path)

theorem agree_iff_entry (level : ∀ p, ¬Flip primary.toFiles replica.toFiles p) :
    Agree conditions primary.toFiles replica.toFiles ↔
      ∀ p, (syncRound conditions .rollingDelta primary.toFiles replica.toFiles).1.entry p = primary.entry p := by
  have whole : ∀ p, (syncRound conditions .fileManifest primary.toFiles replica.toFiles).1.entry p = primary.entry p :=
    entry_whole level
  constructor
  · rintro ⟨same, -, -⟩ p
    rw [(perm_iff_entry _ _).mp same p, whole]
  · intro same
    refine ⟨(perm_iff_entry _ _).mpr fun p => (same p).trans (whole p).symm, manifestDiff_eq_nil same,
      manifestDiff_eq_nil whole⟩

theorem listed_tempPath {p : String} (shown : listed p) : listed (tempPath p) := by
  simp only [listed, decide_eq_true_eq] at shown ⊢
  obtain ⟨some_, breaks, top⟩ := shown
  have chars : (tempPath p).toList = p.toList ++ ".wolfha-delta".toList := String.toList_append
  have plain : '/' ∉ ".wolfha-delta".toList ∧ '\n' ∉ ".wolfha-delta".toList := by decide
  refine ⟨?_, ?_, ?_⟩
  · intro empty
    rw [empty] at chars
    cases List.append_eq_nil_iff.mp chars.symm |>.2
  · rw [chars, List.mem_append]
    exact fun member => member.elim breaks plain.2
  · rintro ⟨slash, excluded⟩
    rw [chars, List.mem_append] at slash
    have inside := slash.resolve_right plain.1
    refine top ⟨inside, ?_⟩
    have stops : (p.toList.takeWhile (· ≠ '/')).length ≠ p.toList.length := by
      intro whole
      have all := (List.takeWhile_sublist _).eq_of_length whole
      simpa using List.takeWhile_eq_self_iff.mp all '/' inside
    rwa [chars, List.takeWhile_append, if_neg stops] at excluded

/-- The end of a round whose block deltas left the given files, and with which failure. -/
structure Ended (conditions : Conditions) (primary replica : Tree) (files : Files) (failed : Option Failed)
    (after : Files) : Prop where
  installed : installAll conditions.clock replica.toFiles (blockItems conditions primary.toFiles replica.toFiles) =
    (files, failed)
  stopped : failed ≠ none → after = files
  applied : failed = none → ∀ p, after.entry p = if primary.entry p = none then none
    else if p ∈ (syncDiff primary.toFiles replica.toFiles).1 ∧
      p ∉ (blockItems conditions primary.toFiles replica.toFiles).map (·.path) then primary.entry p else files.entry p

theorem known_installed {items : List FileDelta} {clock : String → Int} {failed : Option Failed}
    (done : installAll clock replica.toFiles items = (files, failed)) : Known primary replica files := by
  intro q there
  right
  intro absent
  exact there (installAll_absent done absent)

theorem syncRound_rolling (level : ∀ p, ¬Flip primary.toFiles replica.toFiles p)
    (fits : ∀ item ∈ blockItems conditions primary.toFiles replica.toFiles, item.Fits)
    (memory : (packFileDeltas (blockItems conditions primary.toFiles replica.toFiles)).length < maxBytes) :
    ∃ files failed, Ended conditions primary replica files failed
      (syncRound conditions .rollingDelta primary.toFiles replica.toFiles).1 := by
  obtain ⟨archived, shipped, sent⟩ := @ship_rolling conditions primary.toFiles replica.toFiles
  have blocks : applyBlocks conditions.clock replica.toFiles
        (ship conditions primary.toFiles replica.toFiles .rollingDelta).blocks =
      installAll conditions.clock replica.toFiles (blockItems conditions primary.toFiles replica.toFiles) := by
    rw [shipped]
    by_cases none_ : blockItems conditions primary.toFiles replica.toFiles = []
    · rw [if_pos none_, none_]
      rfl
    · rw [if_neg none_]
      dsimp only [applyBlocks]
      rw [applyBlockDeltas, (unpackFileDeltas_ok_iff memory).mpr ⟨fits, rfl⟩]
  cases installed : installAll conditions.clock replica.toFiles (blockItems conditions primary.toFiles replica.toFiles) with
  | mk files failed =>
    refine ⟨files, failed, installed, ?_, ?_⟩
    · intro stopped
      rw [syncRound, wolfhaApplyDelta, blocks, installed]
      cases failed with
      | none => exact absurd rfl stopped
      | some text => rfl
    · rintro rfl p
      have within : ∀ p ∈ archived, p ∈ (syncDiff primary.toFiles replica.toFiles).1 := fun p member => ((sent p).mp member).1
      obtain ⟨after, done, entries⟩ := entry_of_archive (known_installed installed) level within
      rw [syncRound, wolfhaApplyDelta, blocks, installed, shipped]
      dsimp only
      rw [done, entries]
      simp only [sent]

theorem Ended.necessary {after : Files} {failed : Option Failed} (ended : Ended conditions primary replica files failed after)
    (level : ∀ p, ¬Flip primary.toFiles replica.toFiles p) (same : ∀ p, after.entry p = primary.entry p)
    (member : item ∈ blockItems conditions primary.toFiles replica.toFiles) :
    Timely conditions primary.toFiles item ∧ Spared conditions primary.toFiles replica.toFiles item := by
  have distinct := @nodup_blockItems conditions primary.toFiles replica.toFiles
  have finished : failed = none := by
    by_contra stopped
    obtain ⟨left, inside, stands⟩ := installAll_failed ended.installed stopped distinct
    obtain ⟨there, differs⟩ := mem_changed.mp (shipped_of_mem level inside).changed
    have entry := same left.path
    rw [ended.stopped stopped] at entry
    rcases stands with kept | gone
    · exact differs (by rw [← entry, Files.entry, Files.entry, kept])
    · exact there (by rw [← entry, Files.entry, gone, Option.map_none, ite_self])
  obtain rfl := finished
  obtain ⟨writable, beside, target⟩ := installAll_done ended.installed distinct item member
  have shipped := shipped_of_mem level member
  obtain ⟨content, mtime, out, found, -, -⟩ := shipped.sized
  have shown := (changed_archived _ shipped.changed).1
  have ends := ended.applied rfl
  constructor
  · have held : primary.entry item.path = some (describe item.path (.file content mtime)) := by
      rw [Files.entry, if_pos shown, found, Option.map_some]
    have left : files.entry item.path = primary.entry item.path := by
      rw [← same, ends, if_neg (held ▸ Option.some_ne_none _), if_neg fun sent => sent.2 (List.mem_map_of_mem member)]
    rw [held, Files.entry, if_pos shown] at left
    rcases target with gone | ⟨written, target⟩
    · rw [gone] at left
      cases left
    · rw [target, Option.map_some, Option.some.injEq] at left
      have time : conditions.clock item.path = mtime := congrArg ManifestEntry.m left
      exact ⟨content, time ▸ found⟩
  · refine ⟨writable, fun theirs own => ?_⟩
    have held : primary.entry (tempPath item.path) ≠ none := by
      rw [Files.entry, if_pos (listed_tempPath shown), ne_eq, Option.map_eq_none_iff]
      exact own
    by_contra unsent
    have left := same (tempPath item.path)
    rw [ends, if_neg held, if_neg unsent, Files.entry, beside, Option.map_none, ite_self] at left
    exact held left.symm

theorem rebuilt_unique {left right : Bytes} (first : Rebuilt replica.toFiles item left)
    (second : Rebuilt replica.toFiles item right) : left = right := by
  obtain ⟨base, mtime, held, applied⟩ := first
  obtain ⟨base', mtime', held', applied'⟩ := second
  rw [held] at held'
  cases held'
  rw [applied] at applied'
  cases applied'
  rfl

theorem Ended.sufficient {after : Files} {failed : Option Failed} (ended : Ended conditions primary replica files failed after)
    (level : ∀ p, ¬Flip primary.toFiles replica.toFiles p)
    (met : ∀ item ∈ blockItems conditions primary.toFiles replica.toFiles,
      Timely conditions primary.toFiles item ∧ Spared conditions primary.toFiles replica.toFiles item) (p : String) :
    after.entry p = primary.entry p := by
  have apart : ∀ item ∈ blockItems conditions primary.toFiles replica.toFiles,
      ∀ other ∈ blockItems conditions primary.toFiles replica.toFiles, tempPath item.path ≠ other.path := by
    intro item inside other member same
    obtain ⟨content, mtime, out, found, ⟨base, time, held, -⟩, -⟩ := (shipped_of_mem level member).sized
    have theirs : replica.find (tempPath item.path) ≠ none := by
      rw [same, held]
      nofun
    have own : primary.find (tempPath item.path) ≠ none := by
      rw [same, found]
      nofun
    exact ((met item inside).2.restored theirs own).2 (same ▸ List.mem_map_of_mem member)
  have ready : ∀ item ∈ blockItems conditions primary.toFiles replica.toFiles,
      isSafeRelPath item.path ∧ ∃ out, Rebuilt replica.toFiles item out := by
    intro item member
    have shipped := shipped_of_mem level member
    obtain ⟨-, -, out, -, rebuilt, -⟩ := shipped.sized
    exact ⟨shipped.safe, out, rebuilt⟩
  obtain ⟨finished, done, targets, frame⟩ := @installAll_ok conditions.clock _ _ ready
    (fun item member => (met item member).2.writable) (nodup_blockItems _ _) apart
  rw [ended.installed, Prod.mk.injEq] at done
  obtain ⟨rfl, rfl⟩ := done
  rw [ended.applied rfl]
  split
  · rename_i unlisted
    exact unlisted.symm
  · rename_i held
    split
    · rfl
    · rename_i unsent
      by_cases rebuilt : p ∈ (blockItems conditions primary.toFiles replica.toFiles).map (·.path)
      · obtain ⟨item, member, rfl⟩ := List.mem_map.mp rebuilt
        obtain ⟨out, rebuilt, target⟩ := targets item member
        obtain ⟨content, mtime, same, found, rebuilds, size⟩ := (shipped_of_mem level member).sized
        obtain ⟨content', timely⟩ := (met item member).1
        rw [found] at timely
        cases timely
        obtain rfl := rebuilt_unique rebuilt rebuilds
        simp only [Files.entry, target, found, Option.map_some, describe, size]
      · have unchanged : p ∉ (syncDiff primary.toFiles replica.toFiles).1 := fun changed => unsent ⟨changed, rebuilt⟩
        have level_ : replica.entry p = primary.entry p := by
          by_contra differs
          exact unchanged (mem_changed.mpr ⟨held, differs⟩)
        rw [← level_, Files.entry, Files.entry, frame]
        intro item member
        refine ⟨fun same => rebuilt (same ▸ List.mem_map_of_mem member), ?_⟩
        rintro rfl
        have own : primary.find (tempPath item.path) ≠ none := by
          intro absent
          simp [Files.entry, absent] at held
        have theirs : replica.find (tempPath item.path) ≠ none := by
          intro absent
          rw [← level_] at held
          simp [Files.entry, absent] at held
        exact unchanged ((met item member).2.restored theirs own).1

/-- The drivers agree exactly when every file that travels as a block delta is rebuilt
with the primary's modification time and beside no file that is not restored. -/
theorem drivers_agree_iff (conditions : Conditions) (primary replica : Tree)
    (level : ∀ p, ¬Flip primary.toFiles replica.toFiles p)
    (fits : ∀ item ∈ blockItems conditions primary.toFiles replica.toFiles, item.Fits)
    (memory : (packFileDeltas (blockItems conditions primary.toFiles replica.toFiles)).length < maxBytes) :
    Agree conditions primary.toFiles replica.toFiles ↔
      ∀ item ∈ blockItems conditions primary.toFiles replica.toFiles,
        Timely conditions primary.toFiles item ∧ Spared conditions primary.toFiles replica.toFiles item := by
  obtain ⟨files, failed, ended⟩ := syncRound_rolling level fits memory
  rw [agree_iff_entry level]
  exact ⟨fun same item member => ended.necessary level same member, fun met => ended.sufficient level met⟩

theorem decode_short {strongHash : Bytes → Digest} {base : Bytes} (short : base.length < 2 ^ 32) :
    decodeSignatures (encodeSignatures (signatures strongHash base blockSize)) = .ok (signatures strongHash base blockSize) := by
  have few : (signatures strongHash base blockSize).blocks.length < 2 ^ 32 := by
    rw [signatures, List.length_map]
    by_contra many
    have started := (lt_length_readBlocks blockSize base (by decide) (2 ^ 32 - 1)).mp (by omega)
    rw [blockSize] at started
    omega
  have word : (signatures strongHash base blockSize).baseLen < 2 ^ 64 := by
    have baseLen : (signatures strongHash base blockSize).baseLen = base.length :=
      sum_readBlocks blockSize base (by decide)
    omega
  rw [decode_encodeSignatures _ (show 0 < blockSize by decide) (show blockSize < 2 ^ 32 by decide) word, Nat.mod_eq_of_lt few, List.take_length]

theorem blockItems_one {primary replica : Files} {rel : String} {data base : Bytes} {time time' : Int}
    {deletions : List String} (ready : conditions.answered ∧ conditions.staged)
    (changed : syncDiff primary replica = ([rel], deletions)) (safe : isSafeRelPath rel)
    (own : primary.find rel = some (.file data time)) (theirs : replica.find rel = some (.file base time'))
    (large : minDeltaSize ≤ data.length) (small : data.length < 2 ^ 32) (short : base.length < 2 ^ 32)
    (path : (utf8 rel).length < 2 ^ 32)
    (shorter : (encodeDelta (deltaFromBytes conditions.strongHash data (signatures conditions.strongHash base blockSize))).length <
      data.length) : ∃ item : FileDelta, item.path = rel ∧ blockItems conditions primary replica = [item] ∧ item.Fits ∧
        (packFileDeltas [item]).length < maxBytes := by
  have read : readThrough conditions primary rel = some data := by
    rw [readThrough, own]
  have worth : worthDelta conditions primary rel = true := by
    rw [worthDelta, read]
    exact decide_eq_true large
  have answer : wolfhaSignature conditions replica rel =
      some (encodeSignatures (signatures conditions.strongHash base blockSize)) := by
    rw [wolfhaSignature, if_pos safe, theirs]
  have encoded : blockDelta conditions primary (wolfhaSignature conditions replica) rel =
      some ⟨rel, deltaFromBytes conditions.strongHash data (signatures conditions.strongHash base blockSize)⟩ := by
    rw [blockDelta, answer]
    dsimp only
    rw [decode_short short]
    dsimp only
    rw [read]
    dsimp only
    rw [if_neg (by omega)]
  have sent : deltaPaths conditions primary replica = [rel] := by
    rw [deltaPaths, changed, List.filter_cons_of_pos worth, List.filter_nil]
  obtain ⟨-, rebuilds⟩ := @decoded_rebuilds conditions base data _ rel (by omega) (decode_short short)
  refine ⟨⟨rel, deltaFromBytes conditions.strongHash data (signatures conditions.strongHash base blockSize)⟩, rfl, ?_,
    FileDelta.fits_of_short path (Nat.lt_trans shorter small) ?_, ?_⟩
  · rw [blockItems, sent, if_pos ⟨ready.1, ready.2, show 1 ≤ maxSignaturePaths by decide⟩, List.filterMap_cons_some encoded, List.filterMap_nil]
  · rintro index count member rfl
    exact absurd (rebuilds.inside index 0 member).1 (by decide)
  · simp only [packFileDeltas, List.flatMap_cons, List.flatMap_nil, List.append_nil, packFile, frameHeader,
      List.length_append, length_leBytes, maxBytes]
    omega

end

section

variable {strongHash : Bytes → Digest} {sig : FileSignature} {size : Nat}

def zeros (size : Nat) : Bytes := List.replicate size 0

theorem foldl_zeros {σ : Type} {f : σ → UInt8 → σ} {s : σ} (fixed : f s 0 = s) (size : Nat) : (zeros size).foldl f s = s := by
  induction size with
  | zero => rfl
  | succ size ih => rw [zeros, List.replicate_succ, List.foldl_cons, fixed, ← zeros, ih]

theorem weakChecksum_zeros (size : Nat) : weakChecksum (zeros size) = (Rolling.new (zeros size)).digest := by
  rw [weakChecksum, foldl_zeros (by decide), Rolling.new, Rolling.digest, foldl_zeros (by decide)]

theorem drop_zeros (size n : Nat) : (zeros size).drop n = zeros (size - n) := List.drop_replicate

theorem take_zeros {size n : Nat} (within : n ≤ size) : (zeros size).take n = zeros n := by
  rw [zeros, List.take_replicate, Nat.min_eq_left within, ← zeros]

theorem matched_zeros (positive : 0 < size) (blocks : Nat) :
    ∃ index, matched strongHash (signatures strongHash (zeros ((blocks + 1) * size)) size) (.new (zeros size)) (zeros size) =
      some index := by
  have long : size ≤ (blocks + 1) * size := Nat.le_mul_of_pos_left size (Nat.succ_pos blocks)
  have first : (readBlocks size (zeros ((blocks + 1) * size)))[0]? = some (zeros size) := by
    have there := (lt_length_readBlocks size (zeros ((blocks + 1) * size)) positive 0).mpr (by simp [zeros]; omega)
    obtain ⟨found, _⟩ := readBlocks_get size _ 0 _ (List.getElem?_eq_getElem there)
    rw [List.getElem?_eq_getElem there, found, block_zero, take_zeros long]
  refine Option.isSome_iff_exists.mp (List.find?_isSome.mpr ⟨0, ?_, ?_⟩)
  · simp only [FileSignature.candidates, List.mem_map, List.mem_filter, decide_eq_true_eq, Prod.exists]
    refine ⟨blockSig strongHash (zeros size), 0, ⟨?_, ?_, weakChecksum_zeros size⟩, rfl⟩
    · rw [List.mem_zipIdx_iff_getElem?, signatures, List.getElem?_map, first]
      rfl
    · rw [FileSignature.blockLen, signatures, sum_readBlocks size _ positive]
      simp [zeros]
      omega
  · simp only [FileSignature.strongAt, signatures, List.getElem?_map, UInt32.toNat_zero, first]
    simp [blockSig]

theorem scan_window (window : sig.blockSize = size) (positive : 0 < size) {index : UInt32}
    (found : matched strongHash sig (.new (zeros size)) (zeros size) = some index) (n : Nat) (ops : List DeltaOp) :
    scan strongHash sig (.new (zeros size)) (zeros (size + n)) [] ops =
      if n < size then (zeros n, [], pushCopy ops index)
      else scan strongHash sig (.new (zeros size)) (zeros n) [] (pushCopy ops index) := by
  have cons : zeros (size + n) = 0 :: zeros (size + n - 1) := by
    rw [zeros, zeros, ← List.replicate_succ, Nat.sub_add_cancel (by omega)]
  have rest : (zeros (size + n - 1)).drop (size - 1) = zeros n := by
    rw [drop_zeros]
    congr 1
    omega
  have length : (zeros n).length = n := List.length_replicate
  rw [cons, scan, ← cons, window, take_zeros (Nat.le_add_right size n), found]
  simp only [rest, length, flushLiteral, List.isEmpty_nil, if_true]
  split
  · rfl
  · rename_i more
    rw [take_zeros (Nat.le_of_not_lt more)]

theorem scan_zeros (window : sig.blockSize = size) (positive : 0 < size) {index : UInt32}
    (found : matched strongHash sig (.new (zeros size)) (zeros size) = some index) (blocks : Nat) (ops : List DeltaOp) :
    ∃ more, scan strongHash sig (.new (zeros size)) (zeros ((blocks + 1) * size)) [] ops = ([], [], more) ∧
      (encodeDelta more).length ≤ (encodeDelta ops).length + 9 * (blocks + 1) := by
  have longer := length_encodeDelta_pushCopy ops index
  induction blocks generalizing ops with
  | zero =>
    refine ⟨pushCopy ops index, ?_, by omega⟩
    have whole := scan_window window positive found 0 ops
    rw [Nat.add_zero, if_pos positive] at whole
    rw [Nat.zero_add, Nat.one_mul, whole]
    rfl
  | succ blocks ih =>
    obtain ⟨more, scanned, short⟩ := ih (pushCopy ops index) (length_encodeDelta_pushCopy _ index)
    refine ⟨more, ?_, by omega⟩
    have size_le : size ≤ (blocks + 1) * size := Nat.le_mul_of_pos_left size (Nat.succ_pos blocks)
    rw [Nat.succ_mul, Nat.add_comm, scan_window window positive found, if_neg (by omega), scanned]

theorem length_delta_zeros (positive : 0 < size) (blocks : Nat) :
    (encodeDelta (deltaFromBytes strongHash (zeros ((blocks + 1) * size))
      (signatures strongHash (zeros ((blocks + 1) * size)) size))).length ≤ 9 * (blocks + 1) := by
  obtain ⟨index, found⟩ := @matched_zeros strongHash size positive blocks
  have window : (signatures strongHash (zeros ((blocks + 1) * size)) size).blockSize = size := rfl
  obtain ⟨more, scanned, short⟩ := scan_zeros window positive found blocks []
  have long : size ≤ (blocks + 1) * size := Nat.le_mul_of_pos_left size (Nat.succ_pos blocks)
  have blocks_ : (signatures strongHash (zeros ((blocks + 1) * size)) size).blocks ≠ [] := by
    intro none_
    simp [matched, FileSignature.candidates, none_] at found
  have length : (zeros ((blocks + 1) * size)).length = (blocks + 1) * size := List.length_replicate
  rw [deltaFromBytes, if_neg (by simp [blocks_, window]; omega), window, length, if_pos long, take_zeros long, scanned, finish]
  have ended : flushLiteral more ([] ++ []) = more := by simp [flushLiteral]
  have nothing : encodeDelta [] = [] := rfl
  rw [ended]
  split
  · rename_i idx len last
    have nonempty : 0 < len := by
      rw [FileSignature.tailBlock] at last
      split at last
      · cases last
      · obtain ⟨bounds, same⟩ := Option.ite_none_right_eq_some.mp last
        cases same
        exact bounds.1
    rw [if_neg fun tail => by simp only [List.length_nil] at tail; omega]
    simpa [nothing] using short
  · simpa [nothing] using short

end

def diskTree (mtime : Int) : Tree where
  entries := [("disk.img", .file (zeros (16 * blockSize)) mtime)]
  distinct := by simp
  safe := by
    intro entry member
    obtain rfl := List.mem_singleton.mp member
    show isSafeRelPath "disk.img" = true
    decide +kernel
  parents := by
    intro entry member i _ slash
    obtain rfl := List.mem_singleton.mp member
    have inside : '/' ∈ "disk.img".toList := List.mem_of_getElem? slash
    exact absurd inside (by decide)
  sizes := by
    intro p content time member
    simp only [List.mem_singleton, Prod.mk.injEq, Object.file.injEq] at member
    obtain ⟨-, rfl, -⟩ := member
    rw [zeros, List.length_replicate]
    decide

def diskConditions (clock : Int) : Conditions where
  strongHash := paddedHash
  answered := true
  staged := true
  linked _ := none
  clock _ := clock

theorem buildManifest_disk (mtime : Int) :
    buildManifest (diskTree mtime).toFiles = [⟨"disk.img", .f, 16 * blockSize, mtime, ""⟩] := by
  have shown : listed "disk.img" = true := by decide +kernel
  simp [buildManifest, diskTree, shown, describe, zeros]

theorem level_disk (p : String) : ¬Flip (diskTree 200).toFiles (diskTree 100).toFiles p := by
  rintro ⟨-, object, was, found, held, kinds⟩
  rw [Files.find_eq_some_iff] at found held
  obtain ⟨-, rfl⟩ := Prod.mk.inj (List.mem_singleton.mp found)
  obtain ⟨-, rfl⟩ := Prod.mk.inj (List.mem_singleton.mp held)
  exact kinds rfl

theorem blockItems_disk (clock : Int) : ∃ item : FileDelta, item.path = "disk.img" ∧
    blockItems (diskConditions clock) (diskTree 200).toFiles (diskTree 100).toFiles = [item] ∧ item.Fits ∧
      (packFileDeltas [item]).length < maxBytes := by
  have changed : syncDiff (diskTree 200).toFiles (diskTree 100).toFiles = (["disk.img"], []) := by
    rw [syncDiff, buildManifest_disk, buildManifest_disk]
    decide +kernel
  have length : (zeros (16 * blockSize)).length = 16 * blockSize := List.length_replicate
  have held (mtime : Int) : (diskTree mtime).find "disk.img" = some (.file (zeros (16 * blockSize)) mtime) :=
    (diskTree mtime).find_eq_some_iff.mpr List.mem_cons_self
  have shorter := @length_delta_zeros paddedHash blockSize (by decide) 15
  have size : minDeltaSize ≤ 16 * blockSize ∧ 16 * blockSize < 2 ^ 32 ∧ 9 * (15 + 1) < 16 * blockSize := by decide
  exact blockItems_one ⟨rfl, rfl⟩ changed (by decide +kernel) (held 200) (held 100) (by omega) (by omega) (by omega)
    (by decide +kernel) (by rw [length]; exact Nat.lt_of_le_of_lt shorter size.2.2)

theorem drivers_agree_sample : Agree (diskConditions 200) (diskTree 200).toFiles (diskTree 100).toFiles := by
  obtain ⟨item, path, sent, fits, memory⟩ := blockItems_disk 200
  refine (drivers_agree_iff _ _ _ level_disk ?_ ?_).mpr ?_
  · rw [sent]
    simpa using fits
  · rwa [sent]
  · rw [sent]
    simp only [List.mem_singleton, forall_eq]
    have free (mtime : Int) : (diskTree mtime).find (tempPath item.path) = none := by
      simp [Files.find, diskTree, path, tempPath]
    refine ⟨⟨zeros (16 * blockSize), ?_⟩, ⟨fun object held => ?_, fun theirs => absurd (free 100) theirs⟩⟩
    · rw [path]
      exact (diskTree 200).find_eq_some_iff.mpr List.mem_cons_self
    · rw [free] at held
      cases held

/-- A file touched on the primary at 200 and rebuilt at 300 is newer on the replica. -/
theorem rebuilt_newer : (∀ p, ¬Flip (diskTree 200).toFiles (diskTree 100).toFiles p) ∧
    ¬Agree (diskConditions 300) (diskTree 200).toFiles (diskTree 100).toFiles := by
  obtain ⟨item, path, sent, fits, memory⟩ := blockItems_disk 300
  refine ⟨level_disk, fun agree => ?_⟩
  have all : ∀ other ∈ blockItems (diskConditions 300) (diskTree 200).toFiles (diskTree 100).toFiles, other.Fits := by
    rw [sent]
    simpa using fits
  obtain ⟨files, failed, ended⟩ := syncRound_rolling level_disk all (sent ▸ memory)
  obtain ⟨⟨content, timely⟩, -⟩ :=
    ended.necessary level_disk ((agree_iff_entry level_disk).mp agree) (sent ▸ List.mem_singleton_self item)
  rw [path, Files.find_eq_some_iff] at timely
  have times := (Object.file.inj (Prod.mk.inj (List.mem_singleton.mp timely)).2).2
  exact absurd times (by decide)

end Rootfs
