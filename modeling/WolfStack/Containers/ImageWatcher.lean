import Mathlib.Init
import Mathlib.Algebra.Group.Nat.Defs

/-! The image watcher's configuration: which of it is the cluster's, and what becomes of it
when an operator saves, a peer propagates, or a node reconciles with its peers. -/

namespace Containers

inductive UpdatePolicy where
  | notifyOnly | autoUpdate | ignore | pinned
  deriving DecidableEq, Repr

structure ContainerUpdatePolicy where
  policy : UpdatePolicy := .notifyOnly
  pinnedTo : Option String := none
  backupBeforeUpdate : Bool := true
  healthCheck : Bool := true
  healthCheckTimeoutSecs : Nat := 60
  autoRollback : Bool := true
  checkIntervalSecs : Option Nat := none
  excludeBindMountsFromBackup : Option Bool := none
  deriving DecidableEq, Repr

inductive ImageUpdateStatus where
  | updateAvailable | backingUp | pulling | recreating | healthChecking | completed | rolledBack | failed
  deriving DecidableEq, Repr

structure ImageUpdateEvent where
  id : String
  containerName : String
  image : String
  oldDigest : String
  newDigest : String
  backupId : Option String
  status : ImageUpdateStatus
  timestamp : String
  error : Option String
  deriving DecidableEq, Repr

structure ImageWatcherConfig where
  enabled : Bool := false
  checkIntervalSecs : Nat := 6 * 60 * 60
  defaultPolicy : UpdatePolicy := .notifyOnly
  containerPolicies : List (String × ContainerUpdatePolicy) := []
  updateHistory : List ImageUpdateEvent := []
  scheduleCron : Option String := none
  scheduleWindowMinutes : Nat := 60
  maxParallelUpdates : Nat := 1
  excludeBindMountsFromBackup : Bool := false
  clusterRev : Nat := 0
  deriving DecidableEq, Repr

structure ClusterSettings where
  enabled : Bool
  checkIntervalSecs : Nat
  defaultPolicy : UpdatePolicy
  scheduleCron : Option String
  scheduleWindowMinutes : Nat
  maxParallelUpdates : Nat
  excludeBindMountsFromBackup : Bool
  deriving DecidableEq, Repr

namespace ImageWatcherConfig
variable {config other existing incoming merged : ImageWatcherConfig} {isPropagation : Bool}

def settings (config : ImageWatcherConfig) : ClusterSettings where
  enabled := config.enabled
  checkIntervalSecs := config.checkIntervalSecs
  defaultPolicy := config.defaultPolicy
  scheduleCron := config.scheduleCron
  scheduleWindowMinutes := config.scheduleWindowMinutes
  maxParallelUpdates := config.maxParallelUpdates
  excludeBindMountsFromBackup := config.excludeBindMountsFromBackup

def mergeClusterSettingsFrom (config other : ImageWatcherConfig) : ImageWatcherConfig :=
  { config with
    enabled := other.enabled
    checkIntervalSecs := other.checkIntervalSecs
    defaultPolicy := other.defaultPolicy
    scheduleCron := other.scheduleCron
    scheduleWindowMinutes := other.scheduleWindowMinutes
    maxParallelUpdates := other.maxParallelUpdates
    excludeBindMountsFromBackup := other.excludeBindMountsFromBackup
    clusterRev := max config.clusterRev other.clusterRev }

def clusterSettingsEq (config other : ImageWatcherConfig) : Bool :=
  config.enabled == other.enabled
    && config.checkIntervalSecs == other.checkIntervalSecs
    && config.defaultPolicy == other.defaultPolicy
    && config.scheduleCron == other.scheduleCron
    && config.scheduleWindowMinutes == other.scheduleWindowMinutes
    && config.maxParallelUpdates == other.maxParallelUpdates
    && config.excludeBindMountsFromBackup == other.excludeBindMountsFromBackup

theorem clusterSettingsEq_iff : config.clusterSettingsEq other = true ↔ config.settings = other.settings := by
  simp only [clusterSettingsEq, Bool.and_eq_true, beq_iff_eq, settings, ClusterSettings.mk.injEq, and_assoc]


@[simp] theorem rev_merge :
    (config.mergeClusterSettingsFrom other).clusterRev = max config.clusterRev other.clusterRev := rfl

def resolveOnSave (existing incoming : ImageWatcherConfig) (isPropagation : Bool) : ImageWatcherConfig :=
  if isPropagation then
    existing.mergeClusterSettingsFrom incoming
  else
    { incoming with updateHistory := existing.updateHistory }

def raised (existing incoming : ImageWatcherConfig) : Nat := (max existing.clusterRev incoming.clusterRev + 1) % 2 ^ 64

/-- What the save handler stores, or nothing where a propagation is not newer. -/
def imageWatcherConfigSave (existing incoming : ImageWatcherConfig) (isPropagation : Bool) : Option ImageWatcherConfig :=
  let clusterChanged := !existing.clusterSettingsEq incoming
  if isPropagation && incoming.clusterRev != 0 && decide (incoming.clusterRev ≤ existing.clusterRev) then
    none
  else
    let existingRev := existing.clusterRev
    let cfg := resolveOnSave existing incoming isPropagation
    if !isPropagation then
      some { cfg with clusterRev := if clusterChanged then (max existingRev cfg.clusterRev + 1) % 2 ^ 64 else existingRev }
    else
      some cfg

def imageWatcherClusterSettings (config : ImageWatcherConfig) : ImageWatcherConfig :=
  { config with containerPolicies := [], updateHistory := [] }



theorem save_edit (existing incoming : ImageWatcherConfig) :
    ∃ cfg, imageWatcherConfigSave existing incoming false = some cfg ∧ cfg.settings = incoming.settings ∧
      cfg.clusterRev = if existing.settings = incoming.settings then existing.clusterRev else existing.raised incoming := by
  refine ⟨_, rfl, rfl, ?_⟩
  have changed : existing.clusterSettingsEq incoming = true ↔ existing.settings = incoming.settings := clusterSettingsEq_iff
  by_cases same : existing.settings = incoming.settings
  · simp [same, changed.mpr same]
  · rw [if_neg same, if_pos]
    · rfl
    · rw [Bool.eq_false_iff.mpr fun equal => same (changed.mp equal)]
      rfl

theorem save_propagation : imageWatcherConfigSave existing incoming true = some merged ↔
    (incoming.clusterRev = 0 ∨ existing.clusterRev < incoming.clusterRev) ∧
      merged = existing.mergeClusterSettingsFrom incoming := by
  unfold imageWatcherConfigSave
  by_cases counts : incoming.clusterRev = 0 ∨ existing.clusterRev < incoming.clusterRev
  · have taken : (true && incoming.clusterRev != 0 && decide (incoming.clusterRev ≤ existing.clusterRev)) = false := by
      rcases counts with zero | newer
      · simp [zero]
      · simp [Nat.not_le.mpr newer]
    simp only [taken, Bool.false_eq_true, if_false, counts, true_and]
    exact ⟨fun stored => (Option.some.inj stored).symm, fun stored => congrArg some stored.symm⟩
  · obtain ⟨numbered, older⟩ := not_or.mp counts
    have ignored : (true && incoming.clusterRev != 0 && decide (incoming.clusterRev ≤ existing.clusterRev)) = true := by
      simp [numbered, Nat.not_lt.mp older]
    simp only [ignored, if_true, counts, false_and, reduceCtorEq]

end ImageWatcherConfig

/-- A reconcile under way: the newest settings a peer has answered with. -/
structure Reconcile where
  best : Option ImageWatcherConfig
  bestRev : Nat
  deriving DecidableEq, Repr

namespace Reconcile
variable {pass : Reconcile} {config peerCfg merged : ImageWatcherConfig}

def begin_ (config : ImageWatcherConfig) : Reconcile := ⟨none, config.clusterRev⟩

def hear (pass : Reconcile) (peerCfg : ImageWatcherConfig) : Reconcile :=
  if peerCfg.clusterRev > pass.bestRev then ⟨some peerCfg, peerCfg.clusterRev⟩ else pass

def adopt (pass : Reconcile) (config : ImageWatcherConfig) : Option ImageWatcherConfig :=
  match pass.best with
  | none => none
  | some newer => if newer.clusterRev ≤ config.clusterRev then none else some (config.mergeClusterSettingsFrom newer)

theorem adopt_eq_some : pass.adopt config = some merged ↔
    ∃ newer, pass.best = some newer ∧ config.clusterRev < newer.clusterRev ∧ merged = config.mergeClusterSettingsFrom newer := by
  unfold adopt
  cases pass.best with
  | none => simp
  | some newer =>
    simp only [Option.some.injEq, exists_eq_left']
    split
    · rename_i older
      simp [Nat.not_lt.mpr older]
    · rename_i newer_
      simp [Nat.not_le.mp newer_, eq_comm]

/-- What is remembered as the newest revision is the newest answer's, or the node has it. -/
def Based (pass : Reconcile) (config : ImageWatcherConfig) : Prop :=
  match pass.best with
  | none => pass.bestRev ≤ config.clusterRev
  | some newer => newer.clusterRev = pass.bestRev

theorem based_begin : (begin_ config).Based config := Nat.le_refl _

theorem Based.rising {after : ImageWatcherConfig} (based : pass.Based config) (rising : config.clusterRev ≤ after.clusterRev) :
    pass.Based after := by
  unfold Based at *
  cases best : pass.best with
  | none =>
    simp only [best] at based ⊢
    exact Nat.le_trans based rising
  | some newer => simpa only [best] using based

theorem Based.hear (based : pass.Based config) : (pass.hear peerCfg).Based config := by
  unfold Reconcile.hear
  split
  · exact Eq.refl peerCfg.clusterRev
  · exact based

theorem bestRev_hear (pass : Reconcile) (peerCfg : ImageWatcherConfig) : pass.bestRev ≤ (pass.hear peerCfg).bestRev ∧ peerCfg.clusterRev ≤ (pass.hear peerCfg).bestRev := by
  unfold hear
  split
  · rename_i newer
    exact ⟨Nat.le_of_lt newer, Nat.le_refl _⟩
  · rename_i older
    exact ⟨Nat.le_refl _, Nat.not_lt.mp older⟩

theorem best_hear {newer : ImageWatcherConfig} (best : (pass.hear peerCfg).best = some newer) :
    pass.best = some newer ∨ newer = peerCfg := by
  unfold hear at best
  split at best
  · exact .inr (Option.some.inj best).symm
  · exact .inl best

theorem Based.nothing (based : pass.Based config) (nothing : pass.adopt config = none) : pass.bestRev ≤ config.clusterRev := by
  unfold Based at based
  unfold adopt at nothing
  cases best : pass.best with
  | none => simpa only [best] using based
  | some newer =>
    simp only [best] at based nothing
    split at nothing
    · rename_i older
      exact based ▸ older
    · exact absurd nothing nofun

theorem Based.adopted (based : pass.Based config) (adopted : pass.adopt config = some merged) :
    pass.bestRev ≤ merged.clusterRev := by
  obtain ⟨newer, best, _, rfl⟩ := adopt_eq_some.mp adopted
  simp only [Based, best] at based
  rw [← based]
  exact Nat.le_max_right _ _

end Reconcile
end Containers
