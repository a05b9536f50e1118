import WolfStack.Containers.ImageWatcher
import WolfStack.Effects.Revisions
import WolfStack.Effects.Steps
import Mathlib.Data.Fintype.Lattice

/-! Image-watcher settings across a cluster: operators edit, nodes push what they saved, and
every node reconciles with its peers now and then. Pushes may come late, twice or never. -/

universe u

namespace Containers
open Effects

structure Cluster (ι : Type u) where
  nodes : ι → ImageWatcherConfig
  /-- Everything that was sent and may still arrive somewhere. -/
  pushes : List ImageWatcherConfig
  passes : ι → Option Reconcile
  /-- The peers asked in the pass under way, since a setting was last edited. -/
  asked : ι → ι → Bool
  /-- The peers asked in passes that ended, since a setting was last edited. -/
  met : ι → ι → Bool

inductive SyncEvent (ι : Type u) where
  | edit (node : ι) (incoming : ImageWatcherConfig) (saved : Bool)
  | propagate (node : ι)
  /-- A node of an older release sends its settings, which have no revision. -/
  | legacy (incoming : ImageWatcherConfig)
  | deliver (push : Nat) (node : ι) (saved : Bool)
  | lose (push : Nat)
  | begin_ (node : ι)
  | ask (node peer : ι)
  | finish (node : ι) (saved : Bool)
  deriving DecidableEq

namespace Cluster
variable {ι : Type u} [DecidableEq ι]

def store (s : Cluster ι) (node : ι) (cfg : ImageWatcherConfig) : Cluster ι :=
  { s with nodes := Function.update s.nodes node cfg }

/-- An edit of a setting is sent out, and what was asked before it does not count. -/
def fanOut (s : Cluster ι) (cfg : ImageWatcherConfig) : Cluster ι :=
  { s with pushes := cfg :: s.pushes, asked := fun _ _ => false, met := fun _ _ => false }

def abandon (s : Cluster ι) (node : ι) : Cluster ι :=
  { s with
    passes := Function.update s.passes node none
    asked := Function.update s.asked node fun _ => false }

def ended (s : Cluster ι) (node : ι) : Cluster ι :=
  { s.abandon node with met := Function.update s.met node fun peer => s.met node peer || s.asked node peer }

def step (s : Cluster ι) : SyncEvent ι → Option (Cluster ι)
  | .edit node incoming saved =>
    match (s.nodes node).imageWatcherConfigSave incoming false with
    | none => some s
    | some cfg =>
      if !saved then some s
      else if (s.nodes node).clusterSettingsEq incoming then some (s.store node cfg)
      else some ((s.store node cfg).fanOut cfg)
  | .propagate node => some { s with pushes := s.nodes node :: s.pushes }
  | .legacy incoming => if incoming.clusterRev = 0 then some { s with pushes := incoming :: s.pushes } else none
  | .deliver push node saved =>
    match s.pushes[push]? with
    | none => none
    | some incoming =>
      match (s.nodes node).imageWatcherConfigSave incoming true with
      | none => some s
      | some merged => some (if saved then s.store node merged else s)
  | .lose push => some { s with pushes := s.pushes.eraseIdx push }
  | .begin_ node => some { s.abandon node with passes := Function.update s.passes node (some (.begin_ (s.nodes node))) }
  | .ask node peer =>
    if node = peer then
      none
    else
      match s.passes node with
      | none => none
      | some pass =>
        some { s with
          passes := Function.update s.passes node (some (pass.hear (s.nodes peer).imageWatcherClusterSettings))
          asked := Function.update s.asked node (Function.update (s.asked node) peer true) }
  | .finish node saved =>
    match s.passes node with
    | none => none
    | some pass =>
      match pass.adopt (s.nodes node) with
      | none => some (s.ended node)
      | some merged => some (if saved then (s.store node merged).ended node else s.abandon node)

def Coming (s : Cluster ι) (node : ι) (cfg : ImageWatcherConfig) : Prop :=
  cfg ∈ s.pushes ∨ ∃ pass, s.passes node = some pass ∧ pass.best = some cfg

/-- What a node has, or would take over because its revision is higher. -/
def Held (s : Cluster ι) (node : ι) (cfg : ImageWatcherConfig) : Prop :=
  cfg = s.nodes node ∨ (s.nodes node).clusterRev < cfg.clusterRev ∧ s.Coming node cfg

/-- No other node has the revision with other settings, or would take it over so. -/
def Alone (s : Cluster ι) (node : ι) (revision : Nat) (settings : ClusterSettings) : Prop :=
  ∀ other, other ≠ node → ∀ cfg, s.Held other cfg → cfg.clusterRev = revision → cfg.settings = settings

/-- Where an edit changes a setting, the revision it is given goes up and is in use nowhere
else for other settings. Where a push without a revision is stored on a node that has one,
that revision is not in use elsewhere for other settings. -/
def Fits (s : Cluster ι) : SyncEvent ι → Prop
  | .edit node incoming true => (s.nodes node).settings = incoming.settings ∨
      max (s.nodes node).clusterRev incoming.clusterRev + 1 < 2 ^ 64 ∧
        s.Alone node ((s.nodes node).raised incoming) incoming.settings
  | .deliver push node true => ∀ incoming, s.pushes[push]? = some incoming → incoming.clusterRev = 0 →
      (s.nodes node).clusterRev ≠ 0 → s.Alone node (s.nodes node).clusterRev incoming.settings
  | _ => True

/-- Nothing is under way, and nodes at one revision other than zero have the same settings. -/
structure Begun (s : Cluster ι) : Prop where
  pushes : s.pushes = []
  passes : ∀ node, s.passes node = none
  asked : ∀ node peer, s.asked node peer = false
  met : ∀ node peer, s.met node peer = false
  agree : ∀ left right, (s.nodes left).clusterRev = (s.nodes right).clusterRev → (s.nodes left).clusterRev ≠ 0 →
    (s.nodes left).settings = (s.nodes right).settings

def pairs (s : Cluster ι) : Set (Nat × ClusterSettings) :=
  { pair | ∃ node cfg, s.Held node cfg ∧ pair = (cfg.clusterRev, cfg.settings) }

def pulls (s : Cluster ι) : Pulls ι where
  revision node := (s.nodes node).clusterRev
  found node := (s.passes node).map (·.bestRev)
  asked node peer := s.asked node peer = true
  met node peer := s.met node peer = true

structure Led (s : Cluster ι) (first : ι) : Prop where
  pulls : s.pulls.LedBy first
  pushes : ∀ cfg ∈ s.pushes, cfg.clusterRev ≤ (s.nodes first).clusterRev
  found : ∀ node pass, s.passes node = some pass → pass.bestRev ≤ (s.nodes first).clusterRev

structure Kept (s : Cluster ι) : Prop where
  one : OneEach s.pairs
  based : ∀ node pass, s.passes node = some pass → pass.Based (s.nodes node)
  led : ∃ first, s.Led first

variable {s after : Cluster ι} {node : ι} {cfg incoming merged : ImageWatcherConfig} {pass : Reconcile}

omit [DecidableEq ι] in
theorem held_own (s : Cluster ι) (node : ι) : s.Held node (s.nodes node) := .inl rfl

omit [DecidableEq ι] in
theorem Held.agree {left right : ι} {first second : ImageWatcherConfig} (one : OneEach s.pairs) (held : s.Held left first)
    (other : s.Held right second) (same : first.clusterRev = second.clusterRev) (some_ : first.clusterRev ≠ 0) :
    first.settings = second.settings :=
  one first.clusterRev first.settings second.settings ⟨left, first, held, rfl⟩ ⟨right, second, other, by rw [same]⟩ some_

omit [DecidableEq ι] in
theorem one_sent (one : OneEach s.pairs) (nodes : after.nodes = s.nodes)
    (coming : ∀ node cfg, after.Coming node cfg →
      cfg.clusterRev = 0 ∨ s.Coming node cfg ∨ (cfg.clusterRev, cfg.settings) ∈ s.pairs) : OneEach after.pairs := by
  apply one.fewer
  rintro _ ⟨node, cfg, held, rfl⟩
  rcases held with own | ⟨newer, under⟩
  · exact ⟨node, cfg, .inl (own.trans (congrFun nodes node)), rfl⟩
  · rw [nodes] at newer
    rcases coming node cfg under with zero | before | known
    · omega
    · exact ⟨node, cfg, .inr ⟨newer, before⟩, rfl⟩
    · exact known

theorem one_stored (one : OneEach s.pairs) (nodes : after.nodes = Function.update s.nodes node cfg)
    (rising : (s.nodes node).clusterRev ≤ cfg.clusterRev) (alone : cfg.clusterRev ≠ 0 → s.Alone node cfg.clusterRev cfg.settings)
    (coming : ∀ other sent, after.Coming other sent → sent = cfg ∨ s.Coming other sent) : OneEach after.pairs := by
  let others : Set (Nat × ClusterSettings) :=
    { pair | ∃ other sent, s.Held other sent ∧ (other = node → cfg.clusterRev < sent.clusterRev) ∧
      pair = (sent.clusterRev, sent.settings) }
  have before : OneEach others := by
    apply one.fewer
    intro pair ⟨other, sent, held, _, carried⟩
    exact ⟨other, sent, held, carried⟩
  have joined : OneEach (insert (cfg.clusterRev, cfg.settings) others) := by
    apply before.insert
    intro settings ⟨other, sent, held, apart_, carried⟩ some_
    obtain ⟨revision, rfl⟩ := Prod.mk.inj carried
    by_cases own : other = node
    · exact absurd revision (Nat.ne_of_lt (apart_ own))
    · exact alone some_ other own sent held revision.symm
  apply joined.fewer
  rintro _ ⟨other, sent, held, rfl⟩
  by_cases own : other = node
  · subst other
    unfold Held at held
    rw [nodes, Function.update_self] at held
    rcases held with rfl | ⟨newer, under⟩
    · exact .inl rfl
    · rcases coming node sent under with rfl | known
      · exact .inl rfl
      · exact .inr ⟨node, sent, .inr ⟨Nat.lt_of_le_of_lt rising newer, known⟩, fun _ => newer, rfl⟩
  · unfold Held at held
    rw [nodes, Function.update_of_ne own] at held
    rcases held with rfl | ⟨newer, under⟩
    · exact .inr ⟨other, _, s.held_own other, fun same => absurd same own, rfl⟩
    · rcases coming other sent under with rfl | known
      · exact .inl rfl
      · exact .inr ⟨other, sent, .inr ⟨newer, known⟩, fun same => absurd same own, rfl⟩

/-! ### What one event does -/

omit [DecidableEq ι] in
theorem Led.advance {first : ι} (led : s.Led first)
    (highest : ∀ node, (after.nodes node).clusterRev ≤ (s.nodes first).clusterRev)
    (rising : ∀ node, (s.nodes node).clusterRev ≤ (after.nodes node).clusterRev)
    (pushes : ∀ cfg ∈ after.pushes, cfg.clusterRev ≤ (s.nodes first).clusterRev)
    (found : ∀ node pass, after.passes node = some pass → pass.bestRev ≤ (s.nodes first).clusterRev)
    (asked : ∀ node, after.asked node first = true → s.asked node first = true ∧ after.passes node = s.passes node ∨
      ∃ pass, after.passes node = some pass ∧ (s.nodes first).clusterRev ≤ pass.bestRev)
    (met : ∀ node, after.met node first = true →
      s.met node first = true ∨ (s.nodes first).clusterRev ≤ (after.nodes node).clusterRev) : after.Led first := by
  have same : (after.nodes first).clusterRev = (s.nodes first).clusterRev := Nat.le_antisymm (highest first) (rising first)
  refine ⟨led.pulls.advance highest rising ?_ met, ?_, ?_⟩
  · intro node there
    rcases asked node there with ⟨before, unchanged⟩ | ⟨pass, running, reached⟩
    · exact .inl ⟨before, congrArg (Option.map fun pass : Reconcile => pass.bestRev) unchanged⟩
    · exact .inr ⟨pass.bestRev, congrArg (Option.map fun pass : Reconcile => pass.bestRev) running, reached⟩
  · rw [same]
    exact pushes
  · rw [same]
    exact found

omit [DecidableEq ι] in
theorem Kept.sent (kept : s.Kept) (pushes : List ImageWatcherConfig)
    (known : ∀ cfg ∈ pushes, cfg.clusterRev = 0 ∨ cfg ∈ s.pushes ∨ ∃ node, cfg = s.nodes node) :
    ({ s with pushes := pushes } : Cluster ι).Kept := by
  obtain ⟨first, led⟩ := kept.led
  refine ⟨one_sent kept.one rfl ?_, kept.based, first, ?_⟩
  · rintro node cfg (sent | fetched)
    · rcases known cfg sent with zero | before | ⟨sender, rfl⟩
      · exact .inl zero
      · exact .inr (.inl (.inl before))
      · exact .inr (.inr ⟨sender, _, s.held_own sender, rfl⟩)
    · exact .inr (.inl (.inr fetched))
  · refine led.advance led.pulls.highest (fun _ => Nat.le_refl _) ?_ led.found (fun _ there => .inl ⟨there, rfl⟩)
      fun _ there => .inl there
    intro cfg sent
    rcases known cfg sent with zero | before | ⟨sender, rfl⟩
    · rw [zero]
      exact Nat.zero_le _
    · exact led.pushes cfg before
    · exact led.pulls.highest sender

omit [DecidableEq ι] in
theorem Led.newest {first : ι} (led : s.Led first) (kept : s.Kept) (coming : s.Coming node cfg) :
    cfg.clusterRev ≤ (s.nodes first).clusterRev := by
  rcases coming with sent | ⟨pass, running, best⟩
  · exact led.pushes cfg sent
  · have based := kept.based node pass running
    simp only [Reconcile.Based, best] at based
    rw [based]
    exact led.found node pass running

theorem Kept.stored (kept : s.Kept) (coming : s.Coming node incoming)
    (merged_ : cfg = (s.nodes node).mergeClusterSettingsFrom incoming)
    (alone : cfg.clusterRev ≠ 0 → s.Alone node cfg.clusterRev cfg.settings) : (s.store node cfg).Kept := by
  obtain ⟨first, led⟩ := kept.led
  have rising : (s.nodes node).clusterRev ≤ cfg.clusterRev := by
    rw [merged_]
    exact Nat.le_max_left _ _
  have rises : ∀ other, (s.nodes other).clusterRev ≤ ((s.store node cfg).nodes other).clusterRev := by
    intro other
    by_cases own : other = node
    · subst own
      simpa [store] using rising
    · simp [store, own]
  refine ⟨one_stored kept.one rfl rising alone fun _ _ under => .inr under, ?_, first, ?_⟩
  · intro other pass running
    exact (kept.based other pass running).rising (rises other)
  · refine led.advance ?_ rises led.pushes led.found (fun _ there => .inl ⟨there, rfl⟩) fun _ there => .inl there
    intro other
    by_cases own : other = node
    · subst own
      simp only [store, Function.update_self, merged_, ImageWatcherConfig.rev_merge]
      exact Nat.max_le.mpr ⟨led.pulls.highest other, led.newest kept coming⟩
    · simp only [store, Function.update_of_ne own]
      exact led.pulls.highest other

theorem Kept.adopted (kept : s.Kept) (coming : s.Coming node incoming)
    (newer : (s.nodes node).clusterRev < incoming.clusterRev) :
    (s.store node ((s.nodes node).mergeClusterSettingsFrom incoming)).Kept := by
  apply kept.stored coming rfl
  intro _ other _ sent held same
  have revision : sent.clusterRev = incoming.clusterRev := same.trans (Nat.max_eq_right (Nat.le_of_lt newer))
  have agreed : sent.settings = incoming.settings := held.agree kept.one (.inr ⟨newer, coming⟩) revision (by omega)
  exact agreed

theorem Kept.abandoned (kept : s.Kept) (node : ι) : (s.abandon node).Kept := by
  obtain ⟨first, led⟩ := kept.led
  have running : ∀ other pass, (s.abandon node).passes other = some pass → other ≠ node ∧ s.passes other = some pass := by
    intro other pass there
    by_cases own : other = node
    · subst own
      simp [abandon] at there
    · exact ⟨own, by simpa [abandon, own] using there⟩
  refine ⟨one_sent kept.one rfl ?_, fun other pass there => kept.based other pass (running other pass there).2, first, ?_⟩
  · rintro other cfg (sent | ⟨pass, there, best⟩)
    · exact .inr (.inl (.inl sent))
    · exact .inr (.inl (.inr ⟨pass, (running other pass there).2, best⟩))
  · refine led.advance led.pulls.highest (fun _ => Nat.le_refl _) led.pushes ?_ ?_ fun _ there => .inl there
    · intro other pass there
      exact led.found other pass (running other pass there).2
    · intro other there
      by_cases own : other = node
      · subst own
        simp [abandon] at there
      · exact .inl ⟨by simpa [abandon, own] using there, by simp [abandon, own]⟩

theorem Kept.passed (kept : s.Kept) (running : s.passes node = some pass)
    (reached : pass.bestRev ≤ (s.nodes node).clusterRev) : (s.ended node).Kept := by
  have rest := kept.abandoned node
  obtain ⟨first, led⟩ := kept.led
  refine ⟨rest.one, rest.based, first, ?_⟩
  refine led.advance led.pulls.highest (fun _ => Nat.le_refl _) led.pushes ?_ ?_ ?_
  · intro other found there
    by_cases own : other = node
    · subst own
      simp [ended, abandon] at there
    · exact led.found other found (by simpa [ended, abandon, own] using there)
  · intro other there
    by_cases own : other = node
    · subst own
      simp [ended, abandon] at there
    · exact .inl ⟨by simpa [ended, abandon, own] using there, by simp [ended, abandon, own]⟩
  · intro other there
    by_cases own : other = node
    · subst own
      simp only [ended, Function.update_self, Bool.or_eq_true] at there
      rcases there with before | now
      · exact .inl before
      · obtain ⟨found, known, ahead⟩ := led.pulls.asked other now
        have same : pass.bestRev = found := by simpa [pulls, running] using known
        exact .inr (Nat.le_trans ahead (same ▸ reached))
    · exact .inl (by simpa [ended, own] using there)

theorem Kept.edited_local (kept : s.Kept) (settings : cfg.settings = (s.nodes node).settings)
    (revision : cfg.clusterRev = (s.nodes node).clusterRev) : (s.store node cfg).Kept := by
  obtain ⟨first, led⟩ := kept.led
  have same : ∀ other, ((s.store node cfg).nodes other).clusterRev = (s.nodes other).clusterRev := by
    intro other
    by_cases own : other = node
    · subst own
      simpa [store] using revision
    · simp [store, own]
  refine ⟨one_stored kept.one rfl (Nat.le_of_eq revision.symm) ?_ fun _ _ under => .inr under, ?_, first, ?_⟩
  · intro some_ other _ sent held equal
    rw [settings]
    rw [revision] at equal some_
    exact held.agree kept.one (s.held_own node) equal (equal ▸ some_)
  · intro other pass running
    exact (kept.based other pass running).rising (Nat.le_of_eq (same other).symm)
  · refine led.advance ?_ (fun other => Nat.le_of_eq (same other).symm) led.pushes led.found (fun _ there => .inl ⟨there, rfl⟩)
      fun _ there => .inl there
    intro other
    rw [same]
    exact led.pulls.highest other

/-- An edit makes its node the first where nobody is ahead of it, and starts a new round of asking. -/
theorem Kept.edited (kept : s.Kept) (rising : (s.nodes node).clusterRev ≤ cfg.clusterRev)
    (alone : s.Alone node cfg.clusterRev cfg.settings) : ((s.store node cfg).fanOut cfg).Kept := by
  obtain ⟨first, led⟩ := kept.led
  have own : ((s.store node cfg).nodes node) = cfg := by simp [store]
  have others : ∀ other, other ≠ node → (s.store node cfg).nodes other = s.nodes other := by
    intro other different
    simp [store, different]
  have rises : ∀ other, (s.nodes other).clusterRev ≤ ((s.store node cfg).nodes other).clusterRev := by
    intro other
    by_cases same : other = node
    · rw [same, own]
      exact rising
    · rw [others other same]
  -- Whoever is the first now, it is as far as the old first and as far as the edit.
  have top : ∃ next, (s.nodes first).clusterRev ≤ ((s.store node cfg).nodes next).clusterRev ∧
      cfg.clusterRev ≤ ((s.store node cfg).nodes next).clusterRev := by
    by_cases ahead : (s.nodes first).clusterRev ≤ cfg.clusterRev
    · exact ⟨node, by rwa [own], by rw [own]⟩
    · exact ⟨first, rises first, Nat.le_trans (Nat.le_of_not_le ahead) (rises first)⟩
  obtain ⟨next, reaches, edited⟩ := top
  refine ⟨one_stored kept.one rfl rising (fun _ => alone) ?_, ?_, next, ⟨Pulls.ledBy_unasked ?_ ?_ ?_, ?_, ?_⟩⟩
  · rintro other sent (listed | fetched)
    · rcases List.mem_cons.mp listed with here | before
      · exact .inl here
      · exact .inr (.inl before)
    · exact .inr (.inr fetched)
  · intro other pass running
    exact (kept.based other pass running).rising (rises other)
  · intro other
    by_cases same : other = node
    · simpa only [pulls, fanOut, same, own] using edited
    · simp only [pulls, fanOut, others other same]
      exact Nat.le_trans (led.pulls.highest other) reaches
  · exact fun _ => Bool.false_ne_true
  · exact fun _ => Bool.false_ne_true
  · intro sent listed
    rcases List.mem_cons.mp listed with rfl | before
    · exact edited
    · exact Nat.le_trans (led.pushes sent before) reaches
  · intro other pass running
    exact Nat.le_trans (led.found other pass running) reaches

theorem Kept.begun (kept : s.Kept) (node : ι) :
    ({ s.abandon node with passes := Function.update s.passes node (some (.begin_ (s.nodes node))) } : Cluster ι).Kept := by
  obtain ⟨first, led⟩ := kept.led
  refine ⟨one_sent kept.one rfl ?_, ?_, first, ?_⟩
  · rintro other cfg (sent | ⟨pass, running, best⟩)
    · exact .inr (.inl (.inl sent))
    · by_cases own : other = node
      · subst own
        obtain rfl : Reconcile.begin_ (s.nodes other) = pass := by simpa using running
        exact absurd best nofun
      · exact .inr (.inl (.inr ⟨pass, by simpa [own] using running, best⟩))
  · intro other pass running
    by_cases own : other = node
    · subst own
      obtain rfl : Reconcile.begin_ (s.nodes other) = pass := by simpa using running
      exact Reconcile.based_begin
    · exact kept.based other pass (by simpa [own] using running)
  · refine led.advance led.pulls.highest (fun _ => Nat.le_refl _) led.pushes ?_ ?_ fun _ there => .inl there
    · intro other pass running
      by_cases own : other = node
      · subst own
        obtain rfl : Reconcile.begin_ (s.nodes other) = pass := by simpa using running
        exact led.pulls.highest other
      · exact led.found other pass (by simpa [own] using running)
    · intro other there
      by_cases own : other = node
      · subst own
        simp [abandon] at there
      · exact .inl ⟨by simpa [abandon, own] using there, by simp [own]⟩

theorem Kept.heard (kept : s.Kept) (running : s.passes node = some pass) (peer : ι) :
    ({ s with
        passes := Function.update s.passes node (some (pass.hear (s.nodes peer).imageWatcherClusterSettings))
        asked := Function.update s.asked node (Function.update (s.asked node) peer true) } : Cluster ι).Kept := by
  obtain ⟨first, led⟩ := kept.led
  have bounds := pass.bestRev_hear (s.nodes peer).imageWatcherClusterSettings
  refine ⟨one_sent kept.one rfl ?_, ?_, first, ?_⟩
  · rintro other cfg (sent | ⟨current, there, best⟩)
    · exact .inr (.inl (.inl sent))
    · by_cases own : other = node
      · subst own
        obtain rfl : pass.hear (s.nodes peer).imageWatcherClusterSettings = current := by simpa using there
        rcases Reconcile.best_hear best with before | rfl
        · exact .inr (.inl (.inr ⟨pass, running, before⟩))
        · exact .inr (.inr ⟨peer, _, s.held_own peer, rfl⟩)
      · exact .inr (.inl (.inr ⟨current, by simpa [own] using there, best⟩))
  · intro other current there
    by_cases own : other = node
    · subst own
      obtain rfl : pass.hear (s.nodes peer).imageWatcherClusterSettings = current := by simpa using there
      exact (kept.based other pass running).hear
    · exact kept.based other current (by simpa [own] using there)
  · refine led.advance led.pulls.highest (fun _ => Nat.le_refl _) led.pushes ?_ ?_ fun _ there => .inl there
    · intro other current there
      by_cases own : other = node
      · subst own
        obtain rfl : pass.hear (s.nodes peer).imageWatcherClusterSettings = current := by simpa using there
        unfold Reconcile.hear
        split
        · exact led.pulls.highest peer
        · exact led.found other pass running
      · exact led.found other current (by simpa [own] using there)
    · intro other there
      by_cases own : other = node
      · subst own
        refine .inr ⟨_, Function.update_self other _ s.passes, ?_⟩
        by_cases asks : first = peer
        · exact asks ▸ bounds.2
        · simp only [Function.update_self, Function.update_of_ne asks] at there
          obtain ⟨found, known, ahead⟩ := led.pulls.asked other there
          have same : pass.bestRev = found := by simpa [pulls, running] using known
          exact Nat.le_trans (same ▸ ahead) bounds.1
      · exact .inl ⟨by simpa [own] using there, by simp [own]⟩

theorem Kept.edit {incoming : ImageWatcherConfig} {saved : Bool} (kept : s.Kept) (fits : s.Fits (.edit node incoming saved))
    (stepped : s.step (.edit node incoming saved) = some after) : after.Kept := by
  obtain ⟨cfg, stored, settings, revision⟩ := (s.nodes node).save_edit incoming
  simp only [Cluster.step, stored] at stepped
  cases saved with
  | false => exact Option.some.inj stepped ▸ kept
  | true =>
    simp only [Bool.not_true, Bool.false_eq_true, if_false] at stepped
    split at stepped
    · rename_i same
      have unchanged := ImageWatcherConfig.clusterSettingsEq_iff.mp same
      rw [if_pos unchanged] at revision
      exact Option.some.inj stepped ▸ kept.edited_local (settings.trans unchanged.symm) revision
    · rename_i changed
      have differs := fun equal => changed (ImageWatcherConfig.clusterSettingsEq_iff.mpr equal)
      rw [if_neg differs] at revision
      obtain ⟨room, alone⟩ := fits.resolve_left differs
      refine Option.some.inj stepped ▸ kept.edited ?_ (by rw [revision, settings]; exact alone)
      rw [revision, ImageWatcherConfig.raised, Nat.mod_eq_of_lt room]
      omega

theorem Kept.deliver {push : Nat} {saved : Bool} (kept : s.Kept) (fits : s.Fits (.deliver push node saved))
    (stepped : s.step (.deliver push node saved) = some after) : after.Kept := by
  simp only [Cluster.step] at stepped
  split at stepped
  · exact absurd stepped nofun
  · rename_i incoming arrived
    have coming : s.Coming node incoming := .inl (List.mem_of_getElem? arrived)
    split at stepped
    · exact Option.some.inj stepped ▸ kept
    · rename_i merged taken
      cases saved with
      | false => exact Option.some.inj stepped ▸ kept
      | true =>
        obtain ⟨counts, merged_⟩ := ImageWatcherConfig.save_propagation.mp taken
        rcases counts with zero | newer
        · refine Option.some.inj stepped ▸ kept.stored coming merged_ ?_
          have revision : merged.clusterRev = (s.nodes node).clusterRev := by
            rw [merged_, ImageWatcherConfig.rev_merge, zero, Nat.max_zero]
          rw [revision, merged_]
          exact fits incoming arrived zero
        · exact Option.some.inj stepped ▸ merged_ ▸ kept.adopted coming newer

theorem Kept.finish {saved : Bool} (kept : s.Kept) (stepped : s.step (.finish node saved) = some after) : after.Kept := by
  simp only [Cluster.step] at stepped
  split at stepped
  · exact absurd stepped nofun
  · rename_i pass running
    split at stepped
    · rename_i nothing
      exact Option.some.inj stepped ▸ kept.passed running ((kept.based node pass running).nothing nothing)
    · rename_i merged adopted
      cases saved with
      | false => exact Option.some.inj stepped ▸ kept.abandoned node
      | true =>
        obtain ⟨newer, best, ahead, rfl⟩ := Reconcile.adopt_eq_some.mp adopted
        have stored := kept.adopted (.inr ⟨pass, running, best⟩) ahead
        have still : (s.store node ((s.nodes node).mergeClusterSettingsFrom newer)).passes node = some pass := running
        refine Option.some.inj stepped ▸ stored.passed still ?_
        simpa [store] using (kept.based node pass running).adopted adopted

theorem Kept.step {event : SyncEvent ι} (kept : s.Kept) (fits : s.Fits event) (stepped : s.step event = some after) :
    after.Kept := by
  cases event with
  | edit node incoming saved => exact kept.edit fits stepped
  | propagate node =>
    refine Option.some.inj stepped ▸ kept.sent (s.nodes node :: s.pushes) ?_
    intro cfg listed
    rcases List.mem_cons.mp listed with own | before
    · exact .inr (.inr ⟨node, own⟩)
    · exact .inr (.inl before)
  | legacy incoming =>
    simp only [Cluster.step] at stepped
    split at stepped
    · rename_i zero
      refine Option.some.inj stepped ▸ kept.sent (incoming :: s.pushes) ?_
      intro cfg listed
      rcases List.mem_cons.mp listed with rfl | before
      · exact .inl zero
      · exact .inr (.inl before)
    · exact absurd stepped nofun
  | deliver push node saved => exact kept.deliver fits stepped
  | lose push =>
    exact Option.some.inj stepped ▸ kept.sent (s.pushes.eraseIdx push) fun cfg listed => .inr (.inl (List.mem_of_mem_eraseIdx listed))
  | begin_ node => exact Option.some.inj stepped ▸ kept.begun node
  | ask node peer =>
    simp only [Cluster.step] at stepped
    split at stepped
    · exact absurd stepped nofun
    · split at stepped
      · exact absurd stepped nofun
      · rename_i pass running
        exact Option.some.inj stepped ▸ kept.heard running peer
  | finish node saved => exact kept.finish stepped

def isEdit : SyncEvent ι → Bool
  | .edit _ _ _ => true
  | _ => false

def brings (s : Cluster ι) : SyncEvent ι → Option ImageWatcherConfig
  | .deliver push _ _ => s.pushes[push]?
  | .finish node _ => (s.passes node).bind (·.best)
  | _ => none

omit [DecidableEq ι] in
theorem Begun.kept [Nonempty ι] [Finite ι] (begun : s.Begun) : s.Kept := by
  obtain ⟨first, highest⟩ := Finite.exists_max fun node => (s.nodes node).clusterRev
  have idle : ∀ node cfg, ¬s.Coming node cfg := by
    rintro node cfg (sent | ⟨pass, running, _⟩)
    · rw [begun.pushes] at sent
      exact absurd sent List.not_mem_nil
    · rw [begun.passes] at running
      exact absurd running nofun
  refine ⟨?_, ?_, first, Pulls.ledBy_unasked highest ?_ ?_, ?_, ?_⟩
  · intro revision left right ⟨one, _, held, carried⟩ ⟨other, _, also, along⟩ some_
    obtain rfl := held.resolve_right fun coming => idle _ _ coming.2
    obtain rfl := also.resolve_right fun coming => idle _ _ coming.2
    obtain ⟨rfl, rfl⟩ := Prod.mk.inj carried
    obtain ⟨same, rfl⟩ := Prod.mk.inj along
    exact begun.agree one other same some_
  · intro node pass running
    exact absurd ((begun.passes node).symm.trans running) nofun
  · intro node there
    exact absurd ((begun.asked node first).symm.trans there) Bool.false_ne_true
  · intro node there
    exact absurd ((begun.met node first).symm.trans there) Bool.false_ne_true
  · intro cfg sent
    rw [begun.pushes] at sent
    exact absurd sent List.not_mem_nil
  · intro node pass running
    exact absurd ((begun.passes node).symm.trans running) nofun

theorem received {event : SyncEvent ι} (stepped : s.step event = some after) (received : isEdit event = false) :
    after.nodes = s.nodes ∨ ∃ target incoming, s.brings event = some incoming ∧
      (incoming.clusterRev = 0 ∨ (s.nodes target).clusterRev < incoming.clusterRev) ∧
      after.nodes = Function.update s.nodes target ((s.nodes target).mergeClusterSettingsFrom incoming) := by
  cases event with
  | edit node incoming saved => exact absurd received nofun
  | deliver push node saved =>
    simp only [step] at stepped
    split at stepped
    · exact absurd stepped nofun
    · rename_i incoming arrived
      split at stepped
      · exact .inl (Option.some.inj stepped ▸ rfl)
      · rename_i merged taken
        obtain ⟨counts, rfl⟩ := ImageWatcherConfig.save_propagation.mp taken
        cases saved with
        | false => exact .inl (Option.some.inj stepped ▸ rfl)
        | true => exact .inr ⟨node, incoming, arrived, counts, Option.some.inj stepped ▸ rfl⟩
  | finish node saved =>
    simp only [step] at stepped
    split at stepped
    · exact absurd stepped nofun
    · rename_i pass running
      split at stepped
      · exact .inl (Option.some.inj stepped ▸ rfl)
      · rename_i merged adopted
        obtain ⟨newer, best, ahead, rfl⟩ := Reconcile.adopt_eq_some.mp adopted
        cases saved with
        | false => exact .inl (Option.some.inj stepped ▸ rfl)
        | true =>
          refine .inr ⟨node, newer, ?_, .inr ahead, Option.some.inj stepped ▸ rfl⟩
          simp only [brings, running, Option.bind_some, best]
  | propagate node => exact .inl (Option.some.inj stepped ▸ rfl)
  | lose push => exact .inl (Option.some.inj stepped ▸ rfl)
  | begin_ node => exact .inl (Option.some.inj stepped ▸ rfl)
  | legacy incoming =>
    simp only [step] at stepped
    split at stepped
    · exact .inl (Option.some.inj stepped ▸ rfl)
    · exact absurd stepped nofun
  | ask node peer =>
    simp only [step] at stepped
    split at stepped
    · exact absurd stepped nofun
    · split at stepped
      · exact absurd stepped nofun
      · exact .inl (Option.some.inj stepped ▸ rfl)

/-- A propagation leaves the node's own state alone, and replaces its settings only if it
comes without a revision or with a higher one. -/
def Propagates (s after : Cluster ι) (event : SyncEvent ι) (node : ι) : Prop :=
  (after.nodes node).containerPolicies = (s.nodes node).containerPolicies ∧
    (after.nodes node).updateHistory = (s.nodes node).updateHistory ∧
    ((s.nodes node).clusterSettingsEq (after.nodes node) = true ∨
      ∃ incoming, s.brings event = some incoming ∧ (after.nodes node).clusterSettingsEq incoming = true ∧
        (incoming.clusterRev = 0 ∨ (s.nodes node).clusterRev < incoming.clusterRev))

theorem propagates {event : SyncEvent ι} (stepped : s.step event = some after) (propagation : isEdit event = false)
    (node : ι) : s.Propagates after event node := by
  have own : (s.nodes node).clusterSettingsEq (s.nodes node) = true ↔ (s.nodes node).settings = (s.nodes node).settings :=
    ImageWatcherConfig.clusterSettingsEq_iff
  rcases received stepped propagation with nodes | ⟨target, incoming, brought, counts, nodes⟩
  · rw [Propagates, nodes]
    exact ⟨rfl, rfl, .inl (own.mpr rfl)⟩
  · by_cases here : node = target
    · subst here
      rw [Propagates, nodes, Function.update_self]
      exact ⟨rfl, rfl, .inr ⟨incoming, brought, ImageWatcherConfig.clusterSettingsEq_iff.mpr rfl, counts⟩⟩
    · rw [Propagates, nodes, Function.update_of_ne here]
      exact ⟨rfl, rfl, .inl (own.mpr rfl)⟩

/-- In every run whose events fit, a revision stands for the same settings on all nodes, a
propagation never brings back an older revision, and once everybody has reconciled with
everybody since the last edit, all have the same settings. -/
theorem settings_converge [Nonempty ι] [Finite ι] (start after : Cluster ι) (events : List (SyncEvent ι))
    (begun : start.Begun) (fits : Along step Fits events start) (run : runSteps step events start = some after) :
    (∀ left right, (after.nodes left).clusterRev = (after.nodes right).clusterRev → (after.nodes left).clusterRev ≠ 0 →
      (after.nodes left).clusterSettingsEq (after.nodes right) = true) ∧
    (∀ event next, after.step event = some next → isEdit event = false → ∀ node, after.Propagates next event node) ∧
    ((∀ node peer, node ≠ peer → after.met node peer = true) → (∃ node, (after.nodes node).clusterRev ≠ 0) →
      ∀ left right, (after.nodes left).clusterSettingsEq (after.nodes right) = true) := by
  have kept : after.Kept := fits.invariant begun.kept (fun _ _ _ kept fits stepped => kept.step fits stepped) run
  have agree : ∀ left right, (after.nodes left).clusterRev = (after.nodes right).clusterRev →
      (after.nodes left).clusterRev ≠ 0 → (after.nodes left).clusterSettingsEq (after.nodes right) = true := by
    intro left right same some_
    exact ImageWatcherConfig.clusterSettingsEq_iff.mpr
      ((after.held_own left).agree kept.one (after.held_own right) same some_)
  refine ⟨agree, fun _ _ stepped propagation node => propagates stepped propagation node, ?_⟩
  intro reconciled ⟨node, some_⟩ left right
  obtain ⟨first, led⟩ := kept.led
  have level := led.pulls.level fun other different => reconciled other first different
  have far := level node
  apply agree left right ((level left).trans (level right).symm)
  intro zero
  exact some_ (far.trans ((level left).symm.trans zero))

def fresh : Cluster Bool := ⟨fun _ => {}, [], fun _ => none, fun _ _ => false, fun _ _ => false⟩

theorem fresh_begun : fresh.Begun :=
  ⟨rfl, fun _ => rfl, fun _ _ => rfl, fun _ _ => rfl, fun _ _ _ _ => rfl⟩

def heldList (s : Cluster ι) (node : ι) : List ImageWatcherConfig :=
  s.nodes node :: (s.pushes ++ ((s.passes node).bind (·.best)).toList).filter fun cfg => (s.nodes node).clusterRev < cfg.clusterRev

omit [DecidableEq ι] in
theorem mem_heldList : cfg ∈ s.heldList node ↔ s.Held node cfg := by
  simp only [heldList, Held, Coming, List.mem_cons, List.mem_filter, List.mem_append, Option.mem_toList,
    Option.bind_eq_some_iff, decide_eq_true_eq]
  tauto

instance [Fintype ι] (revision : Nat) (settings : ClusterSettings) : Decidable (s.Alone node revision settings) :=
  decidable_of_iff (∀ other, other ≠ node → ∀ cfg ∈ s.heldList other, cfg.clusterRev = revision → cfg.settings = settings)
    (by simp only [mem_heldList, Alone])

instance [Fintype ι] (s : Cluster ι) : (event : SyncEvent ι) → Decidable (s.Fits event)
  | .edit node incoming true => inferInstanceAs (Decidable ((s.nodes node).settings = incoming.settings ∨
      max (s.nodes node).clusterRev incoming.clusterRev + 1 < 2 ^ 64 ∧
        s.Alone node ((s.nodes node).raised incoming) incoming.settings))
  | .deliver push node true => inferInstanceAs (Decidable (∀ incoming ∈ s.pushes[push]?, incoming.clusterRev = 0 →
      (s.nodes node).clusterRev ≠ 0 → s.Alone node (s.nodes node).clusterRev incoming.settings))
  | .edit _ _ false | .deliver _ _ false | .propagate _ | .legacy _ | .lose _ | .begin_ _ | .ask _ _ | .finish _ _ => isTrue trivial

/-- Three edits on two nodes. The pushes of the first two arrive, one of them once more when it is
old, that of the last is lost, and reconciling spreads it. -/
def threeEdits : List (SyncEvent Bool) :=
  [.edit false { enabled := true } true, .deliver 0 true true, .edit true { enabled := true, defaultPolicy := .autoUpdate } true,
    .deliver 0 false true, .begin_ true, .edit false { enabled := false, defaultPolicy := .autoUpdate } true, .deliver 2 true true,
    .lose 0, .ask true false, .finish true true, .begin_ false, .ask false true, .finish false true]

theorem settings_converge_threeEdits : ∃ after, runSteps step threeEdits fresh = some after ∧ (after.nodes true).clusterRev = 3 ∧
    (after.nodes true).enabled = false ∧ (after.nodes false).clusterSettingsEq (after.nodes true) = true := by
  have along : Along step Fits threeEdits fresh := by decide
  have checked : ((runSteps step threeEdits fresh).any fun after => decide ((∀ node peer, node ≠ peer → after.met node peer = true) ∧
      (after.nodes true).clusterRev = 3 ∧ (after.nodes true).enabled = false)) = true := by
    decide
  obtain ⟨after, run, facts⟩ := (Option.any_eq_true _ _).mp checked
  obtain ⟨met, revision, off⟩ := of_decide_eq_true facts
  have some_ : (after.nodes true).clusterRev ≠ 0 := by
    rw [revision]
    decide
  exact ⟨after, run, revision, off, (settings_converge fresh after threeEdits fresh_begun along run).2.2 met ⟨true, some_⟩ false true⟩

/-- Two operators edit on two nodes at the same time. Both nodes get to the same revision,
each ignores what the other sends, and reconciling changes nothing. -/
theorem edits_race : ∃ events after, runSteps step events fresh = some after ∧
    (∀ node peer, node ≠ peer → after.met node peer = true) ∧
    (after.nodes false).clusterRev = 1 ∧ (after.nodes true).clusterRev = 1 ∧
    (after.nodes false).clusterSettingsEq (after.nodes true) = false :=
  ⟨[.edit false { enabled := true } true, .edit true { enabled := true, defaultPolicy := .autoUpdate } true,
    .deliver 1 true true, .deliver 0 false true, .begin_ true, .ask true false, .finish true true, .begin_ false,
    .ask false true, .finish false true], _, rfl, by decide, by decide, by decide, by decide⟩

end Cluster
end Containers
