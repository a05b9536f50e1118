import WolfStack.Router.Lines
import WolfStack.WolfHa.ZfsPool

/-! The config of a Proxmox container, and the one that its standby stores. Texts are lists
of characters. -/

namespace WolfHa
namespace ZfsSend
open Auth Router

structure PveVolume where
  key : String
  storage : String
  volume : String
  dataset : String
  deriving DecidableEq, Repr

def isHeader (line : List Char) : Bool := (trimStart line).head? = some '['

/-- Everything before the first header, with an end to its last line. -/
def liveConfigSection (text : List Char) : List Char :=
  let out := ['\n'].intercalate ((lines text).takeWhile fun line => !isHeader line)
  if out ≠ [] ∧ out.getLast? ≠ some '\n' then out ++ ['\n'] else out

def liveLines (text : List Char) : List (List Char) := lines (liveConfigSection text)

def setting (line : List Char) : Option (List Char × List Char) :=
  (splitOnce ':' line).map fun parts => (trimChars parts.1, trimChars parts.2)

def settings (text : List Char) : List (List Char × List Char) := (liveLines text).filterMap setting

def isMountPoint (key : List Char) : Bool := "mp".toList.isPrefixOf key && (key.drop 2).all Char.isDigit && 2 < key.length

def trimEndSlashes (pool : List Char) : List Char := (pool.reverse.dropWhile (· = '/')).reverse

/-- The volume that a mount names: the first of its fields. -/
def volumeOf (pools : String → Option String) (key val : List Char) : Except String PveVolume :=
  let first := trimChars ((splitOn ',' val).headD [])
  let volumeId := (stripPrefix "volume=".toList first).getD first
  let key := String.ofList key
  if volumeId.head? = some '/' then
    .error (s!"{key} is a bind mount of the host path {String.ofList volumeId} — it would not exist on the standby, so this " ++
      "container cannot fail over. Move that data onto a ZFS volume to protect it.")
  else match splitOnce ':' volumeId with
    | none => .error s!"{key}: cannot parse volume {(String.ofList volumeId).quote}"
    | some (storage, volume) => match pools (String.ofList storage) with
      | none =>
        .error (s!"{key} is on storage '{String.ofList storage}', which is not a ZFS pool storage — WolfHA replicates Proxmox " ++
          "containers with `zfs send`, so every volume must be on a zfspool storage")
      | some pool =>
        let dataset := String.ofList (trimEndSlashes pool.toList) ++ "/" ++ String.ofList volume
        if isSafeDataset dataset = false then .error s!"{key}: dataset name {dataset.quote} is not safe to pass to zfs"
        else .ok ⟨key, String.ofList storage, String.ofList volume, dataset⟩

/-- The mounts among settings, as far as the first that cannot be replicated. -/
def mounts (pools : String → Option String) : List (List Char × List Char) → Except String (List PveVolume)
  | [] => .ok []
  | (key, val) :: rest =>
    if key ≠ "rootfs".toList ∧ isMountPoint key = false then mounts pools rest
    else do
      let volume ← volumeOf pools key val
      let volumes ← mounts pools rest
      return volume :: volumes

def containerVolumes (config : List Char) (pools : String → Option String) : Except String (List PveVolume) := do
  let volumes ← mounts pools (settings config)
  if volumes = [] then .error "the container config has no rootfs volume" else return volumes

def configOnboot (config : List Char) : Bool := (settings config).any fun s => s.1 = "onboot".toList ∧ s.2 = ['1']

/-- The first address of the first `net0`. -/
def net0StaticIp (config : List Char) : Option String := do
  let line ← (settings config).find? fun s => s.1 = "net0".toList
  let addresses := ((splitOn ',' line.2).filterMap fun p => stripPrefix "ip=".toList (trimChars p)).map
    fun v => trimChars ((splitOn '/' v).headD [])
  (addresses.find? fun v => (parseIpv4 v).isSome).map String.ofList

local instance charsLawful : LawfulBEq (List Char) := inferInstance

def dropped : List (List Char) := ["onboot".toList, "lock".toList, "parent".toList]

/-- A line without a colon has no key, and is kept. -/
def keeps (line : List Char) : Bool := ((setting line).map Prod.fst).getD [] ∉ dropped

def keptLines (config : List Char) : List (List Char) := (liveLines config).filter keeps

def onbootOff : List Char := "onboot: 0".toList

def replicaConfig (config : List Char) : List Char := ['\n'].intercalate (keptLines config ++ [onbootOff]) ++ ['\n']

variable {config line : List Char}

/-- The lines that are ended in the section: a last one that is empty is not. -/
def endedLines (text : List Char) : List (List Char) :=
  let live := (lines text).takeWhile fun line => !isHeader line
  if live.getLast? = some [] then live.dropLast else live

theorem mem_endedLines (member : line ∈ endedLines config) : '\n' ∉ line ∧ isHeader line = false := by
  have live : line ∈ (lines config).takeWhile fun line => !isHeader line := by
    unfold endedLines at member
    dsimp only at member
    split at member
    · exact List.mem_of_mem_dropLast member
    · exact member
  refine ⟨lines_single line ((List.takeWhile_sublist _).mem live), ?_⟩
  simpa using List.mem_takeWhile_imp live

theorem liveConfigSection_eq (text : List Char) : liveConfigSection text = linesText (endedLines text) := by
  unfold liveConfigSection endedLines
  have single : ∀ line ∈ (lines text).takeWhile fun line => !isHeader line, '\n' ∉ line :=
    fun line member => lines_single line ((List.takeWhile_sublist _).mem member)
  generalize (lines text).takeWhile (fun line => !isHeader line) = live at single ⊢
  dsimp only
  rcases List.eq_nil_or_concat live with rfl | ⟨front, last, rfl⟩
  · rfl
  · rw [List.concat_eq_append] at single ⊢
    have final : (front ++ [last]).getLast? = some last := List.getLast?_concat
    rw [joined_eq]
    by_cases empty : last = []
    · subst empty
      rw [if_pos final, List.dropLast_concat, List.append_nil]
      apply if_neg
      rintro ⟨some_, open_⟩
      rcases List.eq_nil_or_concat front with rfl | ⟨earlier, line, rfl⟩
      · exact some_ rfl
      · apply open_
        simp [linesText, List.getLast?_append]
    · have inside : last ∈ front ++ [last] := List.mem_append_right _ List.mem_cons_self
      have unended : (linesText front ++ last).getLast? ≠ some '\n' := by
        rw [List.getLast?_append_of_ne_nil _ empty]
        intro newline
        exact single last inside (List.mem_of_getLast? newline)
      rw [if_neg fun same => empty (Option.some.inj (final.symm.trans same)),
        if_pos ⟨List.append_ne_nil_of_right_ne_nil _ empty, unended⟩]
      simp [linesText]

theorem liveLines_eq (text : List Char) : liveLines text = (endedLines text).map stripCr := by
  rw [liveLines, liveConfigSection_eq]
  exact lines_ended fun line member => (mem_endedLines member).1

theorem isHeader_stripCr (plain : isHeader line = false) : isHeader (stripCr line) = false := by
  obtain ⟨same, -⟩ | ended := stripCr_cases line
  · rw [same, plain]
  · by_contra header
    have begins : (trimStart (stripCr line)).head? = some '[' := by
      simpa [isHeader] using header
    have shape : trimStart line = trimStart (stripCr line) ++ ['\r'] := by
      conv_lhs => rw [ended]
      rw [trimStart, List.dropWhile_append]
      have some_ : (List.dropWhile isWhitespace (stripCr line)).isEmpty = false := by
        rw [List.isEmpty_eq_false_iff]
        intro nothing
        rw [trimStart, nothing] at begins
        cases begins
      rw [some_]
      rfl
    have also : isHeader line = true := by
      rw [isHeader, shape, List.head?_append, begins]
      rfl
    rw [plain] at also
    cases also

theorem setting_stripCr (line : List Char) : setting (stripCr line) = setting line := by
  obtain ⟨same, -⟩ | ended := stripCr_cases line
  · rw [same]
  · conv_rhs => rw [ended]
    unfold setting
    by_cases colon : ':' ∈ stripCr line
    · obtain ⟨key, val, shape, plain⟩ := List.eq_append_cons_of_mem colon
      rw [shape, List.append_assoc, List.cons_append, splitOnce_append plain, splitOnce_append plain]
      dsimp only [Option.map_some]
      have cr : ∀ c ∈ ['\r'], isWhitespace c = true := by
        rw [List.forall_mem_singleton]
        rfl
      rw [trimChars_white cr]
    · have plain : ':' ∉ stripCr line ++ ['\r'] := by simpa using colon
      rw [splitOnce_plain colon, splitOnce_plain plain]

theorem keeps_stripCr (line : List Char) : keeps (stripCr line) = keeps line := by
  rw [keeps, setting_stripCr, keeps]

theorem replicaConfig_eq (config : List Char) : replicaConfig config = linesText (keptLines config ++ [onbootOff]) := by
  rw [replicaConfig, joined_eq]
  simp [linesText]

theorem mem_keptLines (member : line ∈ keptLines config) : '\n' ∉ line ∧ isHeader line = false := by
  have live := (List.mem_filter.mp member).1
  rw [liveLines_eq] at live
  obtain ⟨ended, among, rfl⟩ := List.mem_map.mp live
  obtain ⟨single, plain⟩ := mem_endedLines among
  exact ⟨fun newline => single (stripCr_subset newline), isHeader_stripCr plain⟩

theorem stored_single : ∀ line ∈ keptLines config ++ [onbootOff], '\n' ∉ line := by
  intro line member
  obtain kept | own := List.mem_append.mp member
  · exact (mem_keptLines kept).1
  · rw [List.mem_singleton.mp own]
    decide

theorem liveLines_replicaConfig (config : List Char) :
    liveLines (replicaConfig config) = (keptLines config).map (fun line => stripCr (stripCr line)) ++ [onbootOff] := by
  have read : lines (replicaConfig config) = (keptLines config).map stripCr ++ [onbootOff] := by
    rw [replicaConfig_eq, lines_ended stored_single, List.map_append, List.map_singleton]
    rfl
  have plain : ∀ line ∈ (keptLines config).map stripCr ++ [onbootOff], (!isHeader line) = true := by
    intro line member
    obtain kept | own := List.mem_append.mp member
    · obtain ⟨before, among, rfl⟩ := List.mem_map.mp kept
      rw [isHeader_stripCr (mem_keptLines among).2]
      rfl
    · rw [List.mem_singleton.mp own]
      decide
  have ended : endedLines (replicaConfig config) = (keptLines config).map stripCr ++ [onbootOff] := by
    unfold endedLines
    dsimp only
    rw [read, List.takeWhile_eq_self_iff.mpr plain]
    have final : ((keptLines config).map stripCr ++ [onbootOff]).getLast? = some onbootOff := List.getLast?_concat
    apply if_neg
    rw [final]
    decide
  rw [liveLines_eq, ended, List.map_append, List.map_map, List.map_singleton]
  rfl

theorem keptLines_replicaConfig (config : List Char) :
    keptLines (replicaConfig config) = (keptLines config).map fun line => stripCr (stripCr line) := by
  rw [keptLines, liveLines_replicaConfig, List.filter_append]
  have off : [onbootOff].filter keeps = [] := by decide
  rw [off, List.append_nil, List.filter_eq_self]
  intro line member
  obtain ⟨before, among, rfl⟩ := List.mem_map.mp member
  rw [keeps_stripCr, keeps_stripCr]
  exact (List.mem_filter.mp among).2

def keepsSetting (s : List Char × List Char) : Bool := s.1 ∉ dropped

theorem filterMap_kept (all : List (List Char)) : (all.filter keeps).filterMap setting = (all.filterMap setting).filter keepsSetting := by
  induction all with
  | nil => rfl
  | cons line rest ih =>
    cases said : setting line with
    | none =>
      have kept : keeps line = true := by
        rw [keeps, said]
        decide
      rw [List.filter_cons_of_pos kept, List.filterMap_cons_none said, List.filterMap_cons_none said, ih]
    | some s =>
      have same : keeps line = keepsSetting s := by
        rw [keeps, said]
        rfl
      rw [List.filterMap_cons_some said, List.filter_cons, List.filter_cons, same]
      split
      · rw [List.filterMap_cons_some said, ih]
      · exact ih

theorem settings_replicaConfig (config : List Char) :
    settings (replicaConfig config) = (settings config).filter keepsSetting ++ [("onboot".toList, ['0'])] := by
  have same : ((keptLines config).map fun line => stripCr (stripCr line)).filterMap setting = (keptLines config).filterMap setting := by
    rw [List.filterMap_map]
    apply List.filterMap_congr
    intro line _
    rw [Function.comp_apply, setting_stripCr, setting_stripCr]
  have off : [onbootOff].filterMap setting = [("onboot".toList, ['0'])] := by decide
  rw [settings, liveLines_replicaConfig, List.filterMap_append, same, off, keptLines, filterMap_kept]
  rfl

theorem configOnboot_replicaConfig (config : List Char) : configOnboot (replicaConfig config) = false := by
  rw [configOnboot, settings_replicaConfig, List.any_append, Bool.or_eq_false_iff]
  refine ⟨?_, by decide⟩
  rw [List.any_eq_false]
  intro s member onboot
  have kept := (List.mem_filter.mp member).2
  have key : s.1 = "onboot".toList := (of_decide_eq_true onboot).1
  rw [keepsSetting, key] at kept
  exact absurd kept (by decide)

theorem mounts_other {pools : String → Option String} {key val : List Char} (rest : List (List Char × List Char))
    (silent : key ≠ "rootfs".toList ∧ isMountPoint key = false) : mounts pools ((key, val) :: rest) = mounts pools rest := if_pos silent

theorem mounts_skip {pools : String → Option String} {passes : List Char × List Char → Bool}
    (others : ∀ s, passes s = false → s.1 ≠ "rootfs".toList ∧ isMountPoint s.1 = false) (all rest : List (List Char × List Char))
    (silent : ∀ s ∈ rest, s.1 ≠ "rootfs".toList ∧ isMountPoint s.1 = false) : mounts pools (all.filter passes ++ rest) = mounts pools all := by
  induction all with
  | nil =>
    rw [List.filter_nil, List.nil_append]
    induction rest with
    | nil => rfl
    | cons s rest ih =>
      obtain ⟨key, val⟩ := s
      rw [mounts_other rest (silent (key, val) List.mem_cons_self)]
      exact ih fun s member => silent s (List.mem_cons_of_mem _ member)
  | cons s all ih =>
    obtain ⟨key, val⟩ := s
    by_cases passed : passes (key, val) = true
    · rw [List.filter_cons_of_pos passed, List.cons_append, mounts, mounts, ih]
    · rw [List.filter_cons_of_neg passed, mounts_other all (others (key, val) (Bool.eq_false_iff.mpr passed)), ih]

theorem containerVolumes_replicaConfig (config : List Char) (pools : String → Option String) :
    containerVolumes (replicaConfig config) pools = containerVolumes config pools := by
  rw [containerVolumes, settings_replicaConfig, mounts_skip, containerVolumes]
  · intro s
    simp only [keepsSetting, dropped, decide_eq_false_iff_not, not_not, List.mem_cons, List.not_mem_nil, or_false]
    rintro (key | key | key) <;> rw [key] <;> decide
  · decide

theorem net0StaticIp_replicaConfig (config : List Char) : net0StaticIp (replicaConfig config) = net0StaticIp config := by
  have found : (settings (replicaConfig config)).find? (fun s => s.1 = "net0".toList) = (settings config).find? fun s => s.1 = "net0".toList := by
    rw [settings_replicaConfig, List.find?_append, List.find?_filter]
    have off : [("onboot".toList, ['0'])].find? (fun s => s.1 = "net0".toList) = none := by decide
    rw [off, Option.or_none]
    congr 1
    funext s
    by_cases key : s.1 = "net0".toList
    · rw [keepsSetting, key]
      decide
    · rw [decide_eq_false key]
      exact decide_eq_false fun both => Bool.false_ne_true both.2
  rw [net0StaticIp, found, net0StaticIp]

/-- A standby's config does not change when it is stored once more unless a line of it still
ends with a carriage return. -/
theorem replicaConfig_idem_iff (config : List Char) :
    replicaConfig (replicaConfig config) = replicaConfig config ↔ ∀ line ∈ keptLines config, line.getLast? ≠ some '\r' := by
  have step : ∀ line, stripCr (stripCr line) = line ↔ line.getLast? ≠ some '\r' := by
    intro line
    obtain ⟨same, open_⟩ | ended := stripCr_cases line
    · rw [same, same]
      exact iff_of_true rfl open_
    · refine iff_of_false (fun same => ?_) (fun open_ => open_ ?_)
      · have shorter : (stripCr (stripCr line)).length ≤ (stripCr line).length := by
          obtain ⟨same, -⟩ | ended := stripCr_cases (stripCr line)
          · rw [same]
          · conv_rhs => rw [ended]
            simp
        have length := congrArg List.length ended
        rw [same] at shorter
        simp at length
        omega
      · rw [ended]
        exact List.getLast?_concat
  have single : ∀ line ∈ (keptLines config).map (fun line => stripCr (stripCr line)) ++ [onbootOff], '\n' ∉ line := by
    rw [← keptLines_replicaConfig]
    exact stored_single
  rw [replicaConfig_eq (replicaConfig config), keptLines_replicaConfig, replicaConfig_eq config]
  constructor
  · intro same line member
    have lists := List.append_cancel_right (linesText_inj single stored_single same)
    exact (step line).mp (List.map_inj_left.mp (lists.trans (List.map_id _).symm) line member)
  · intro open_
    rw [(List.map_congr_left fun line member => (step line).mpr (open_ line member)).trans (List.map_id _)]

/-- A standby never starts itself, and keeps volumes and address. -/
theorem replicaConfig_faithful (config : List Char) :
    configOnboot (replicaConfig config) = false ∧
      (∀ pools, containerVolumes (replicaConfig config) pools = containerVolumes config pools) ∧
      net0StaticIp (replicaConfig config) = net0StaticIp config ∧
      (replicaConfig (replicaConfig config) = replicaConfig config ↔ ∀ line ∈ keptLines config, line.getLast? ≠ some '\r') :=
  ⟨configOnboot_replicaConfig config, containerVolumes_replicaConfig config, net0StaticIp_replicaConfig config,
    replicaConfig_idem_iff config⟩

/-- Three carriage returns at the end of a line are one too many. -/
theorem replicaConfig_unsettled :
    replicaConfig (replicaConfig "arch: amd64\r\r\r\n".toList) ≠ replicaConfig "arch: amd64\r\r\r\n".toList := by
  decide +kernel

end ZfsSend
end WolfHa
