import WolfStack.Router.Loading
import WolfStack.Effects.Schedule
import Mathlib.Data.Prod.Basic

/-! Does a failed load keep the configuration? The default that is held in memory after it
must not reach the file. Loads clear the latch whenever the file can be read, while memory
stays what it was. -/

namespace Router
open Effects

variable {Config : Type} {serde : Serde Config} {chances : Nat → Chance} [DecidableEq Config]

/-- An operator's recovery since the process was started. -/
def restoredSince : List Event → Bool
  | [] => false
  | .restored :: _ => true
  | .started _ :: _ => false
  | _ :: earlier => restoredSince earlier

/-- No save puts what descends from the default over the file before an operator has
recovered it, and a latch is cleared where file and memory agree. -/
structure Kept (log : List Event) : Prop where
  saves : ∀ later over_ earlier, log = later ++ .saved true over_ :: earlier → over_ ≠ .absent →
    restoredSince earlier = true
  settled : ∀ agree, .settled agree ∈ log → agree = true

/-- A process whose load has failed is recovered by starting it again: until then nothing
clears its latch, but for a load that finds a text it cannot parse, and no save of what it
fell back on tests the latch while that load goes on. A recovery at the start is written. -/
def Policy.recoveredByRestart (serde : Serde Config) : Policy Config where
  request s := fun
    | .clearLatch (.readable raw) => s.failed = true → ∃ e, serde.fromStr raw = .error e
    | .clearLatch _ => s.failed = false
    | .testLatch fallback => fallback = true → s.failed = true → s.host.latch = true
    | _ => True
  start := Obliging

structure Guarded (s : Machine Config) : Prop where
  stale : s.host.memory.fallback = true → s.failed = true
  unsaved : ∀ over_, .saved true over_ ∉ s.log
  settled : ∀ agree, .settled agree ∈ s.log → agree = true

omit [DecidableEq Config] in
theorem Guarded.kept {s : Machine Config} (guarded : Guarded s) : Kept s.log where
  saves later over_ earlier split _ := by
    refine absurd ?_ (guarded.unsaved over_)
    rw [split]
    exact List.mem_append_right _ List.mem_cons_self
  settled := guarded.settled

variable {s : Machine Config} {call : CallId} {chance : Chance}

theorem Guarded.restart (guarded : Guarded s) (obliging : Obliging chances) : Guarded (s.restart serde chances) := by
  constructor
  · intro fallback
    unfold Machine.failed
    rw [Bool.or_eq_true]
    exact .inl (s.host.new_latches fallback)
  · intro over_ saved
    unfold Machine.restart at saved
    dsimp only at saved
    split at saved
    · simp [guarded.unsaved] at saved
    · simp [guarded.unsaved] at saved
  · intro agree settled
    unfold Machine.restart at settled
    dsimp only at settled
    split at settled
    · simp only [List.mem_cons, reduceCtorEq, false_or] at settled
      exact guarded.settled agree settled
    · rename_i well
      simp only [List.mem_cons, Event.settled.injEq, reduceCtorEq, false_or] at settled
      rcases settled with rfl | settled
      · exact s.host.new_agrees obliging well
      · exact guarded.settled agree settled

theorem Machine.Failed.guarded (failed : s.Failed serde) : Guarded s := by
  obtain ⟨before, empty, chances, rfl, fallback⟩ := failed
  have failed : (before.host.new serde chances).1.failed = true := fallback
  have log : (before.restart serde chances).log = [.started true] := by
    simp [Machine.restart, failed, empty]
  constructor
  · intro fallback
    unfold Machine.failed
    rw [Bool.or_eq_true]
    exact .inl (before.host.new_latches fallback)
  · simp [log]
  · simp [log]

structure Promised (before after : Machine Config) : Prop where
  boot : after.boot = before.boot
  failing : before.failed = true → after.failed = true

structure Advance (before after : Machine Config) : Prop where
  guarded : Guarded after
  promised : Promised before after

/-- What a caller has to see to: the fallback is assigned only after a load that failed,
and what descends from it is not written. -/
def Fits (s : Machine Config) : {β : Type} → Section Config β → Prop
  | _, .assign held => held.fallback = true → s.failed = true
  | _, .replaceLive (.save fallback) _ => fallback = false
  | _, _ => True

omit [DecidableEq Config] in
theorem Guarded.aside (guarded : Guarded s) {after : Machine Config} (latch : after.host.latch = s.host.latch)
    (loading : after.loading = s.loading) (boot : after.boot = s.boot) (log : ∀ event ∈ after.log,
      event ∈ s.log ∨ event = .restored ∨ ∃ over_, event = .saved false over_)
    (memory : after.host.memory.fallback = true → s.failed = true) : Advance s after := by
  have same : after.failed = s.failed := by
    unfold Machine.failed
    rw [latch, loading]
  refine ⟨⟨fun fallback => same ▸ memory fallback, ?_, ?_⟩, ⟨boot, fun failing => same ▸ failing⟩⟩
  · intro over_ saved
    rcases log _ saved with earlier | restored | ⟨_, other⟩
    · exact guarded.unsaved over_ earlier
    · cases restored
    · cases other
  · intro agree settled
    rcases log _ settled with earlier | restored | ⟨_, other⟩
    · exact guarded.settled agree earlier
    · cases restored
    · cases other

omit [DecidableEq Config] in
theorem Guarded.same (guarded : Guarded s) {host : Host Config} (latch : host.latch = s.host.latch)
    (memory : host.memory.fallback = true → s.host.memory.fallback = true) : Advance s { s with host } :=
  guarded.aside latch rfl rfl (fun _ member => .inl member) fun fallback => guarded.stale (memory fallback)

theorem Guarded.clear (guarded : Guarded s) (well : s.failed = false) {loading : List CallId} :
    Advance s { s with host := { s.host with latch := false }, loading, log := s.settles serde } := by
  have log : s.settles serde = s.log := if_neg (by rw [well]; exact Bool.false_ne_true)
  rw [log]
  refine ⟨⟨fun fallback => ?_, guarded.unsaved, guarded.settled⟩, rfl, fun failing => ?_⟩
  · exact absurd (guarded.stale fallback) (by rw [well]; exact Bool.false_ne_true)
  · exact absurd failing (by rw [well]; exact Bool.false_ne_true)

omit [DecidableEq Config] in
theorem Guarded.transient (guarded : Guarded s) :
    Advance s { s with host := { s.host with latch := false }, loading := call :: s.loading } := by
  have failed : Machine.failed { s with host := { s.host with latch := false }, loading := call :: s.loading } = true := rfl
  exact ⟨⟨fun _ => failed, guarded.unsaved, guarded.settled⟩, rfl, fun _ => failed⟩

omit [DecidableEq Config] in
theorem Guarded.set (guarded : Guarded s) {loading : List CallId} :
    Advance s { s with host := { s.host with latch := true }, loading } := by
  have failed : Machine.failed { s with host := { s.host with latch := true }, loading } = true := rfl
  exact ⟨⟨fun _ => failed, guarded.unsaved, guarded.settled⟩, rfl, fun _ => failed⟩

theorem Guarded.perform (guarded : Guarded s) {β : Type} {operation : Section Config β}
    (may : (Policy.recoveredByRestart serde).request s operation) (fits : Fits s operation) :
    Advance s (s.perform serde call chance operation).2 := by
  cases operation with
  | clearLatch clearing =>
    cases clearing with
    | readable raw =>
      simp only [Machine.perform, Host.run, Machine.record]
      cases reads : serde.fromStr raw with
      | ok cfg =>
        have well : s.failed = false := by
          rw [← Bool.not_eq_true]
          intro failing
          obtain ⟨e, failed⟩ := may failing
          rw [reads] at failed
          cases failed
        exact guarded.clear well
      | error e => exact guarded.transient
    | _ => exact guarded.clear may
  | setLatch => exact guarded.set
  | quarantine raw =>
    cases written : chance.written with
    | ok done => simp only [Machine.perform, Host.run, written]; exact guarded.same rfl id
    | error e => simp only [Machine.perform, Host.run, written]; exact guarded.same rfl id
  | readSnapshot snapshot => cases snapshot <;> exact guarded.same rfl id
  | backUp prune =>
    cases live : s.host.disk.live <;> cases copied : chance.copied <;> simp only [Machine.perform, Host.run, live, copied] <;>
      exact guarded.same rfl id
  | replaceLive writer raw =>
    cases written : chance.written with
    | error e =>
      simp only [Machine.perform, Host.run, written]
      cases writer <;> exact guarded.same rfl id
    | ok done =>
      simp only [Machine.perform, Host.run, written]
      cases writer with
      | save fallback =>
        have clean : fallback = false := fits
        subst clean
        refine guarded.aside rfl rfl rfl (fun event member => ?_) guarded.stale
        rcases List.mem_cons.mp member with rfl | earlier
        · exact .inr (.inr ⟨_, rfl⟩)
        · exact .inl earlier
      | _ => exact guarded.same rfl id
  | overwriteLive raw =>
    cases written : chance.written with
    | ok done => simp only [Machine.perform, Host.run, written]; exact guarded.same rfl id
    | error e => simp only [Machine.perform, Host.run, written]; exact guarded.same rfl id
  | edit edit =>
    cases edit with
    | modify f => exact guarded.same rfl id
    | replace config => exact guarded.same rfl fun impossible => by cases impossible
  | assign held =>
    obtain ⟨config, fallback⟩ := held
    cases fallback with
    | true => exact guarded.aside rfl rfl rfl (fun _ member => .inl member) fun _ => fits rfl
    | false =>
      refine guarded.aside rfl rfl rfl (fun event member => ?_) fun impossible => by cases impossible
      rcases List.mem_cons.mp member with rfl | earlier
      · exact .inr (.inl rfl)
      · exact .inl earlier
  | _ => exact guarded.same rfl id

abbrev routerRules (serde : Serde Config) (call : CallId) : Rules (Machine Config) (Section Config) :=
  (routerSystem serde (.recoveredByRestart serde)).rules Guarded (fun _ => Promised) call

/-- In the given case a load has failed in the process that the call was made in. -/
def Known (call : CallId) (case : Prop) (s : Machine Config) : Prop :=
  case → call.1 ≤ s.boot ∧ (s.boot = call.1 → s.failed = true)

theorem known_stable (case : Prop) : (routerRules serde call).Stable (Known call case) := by
  intro before after _ _ interference known here
  obtain ⟨begun, failed⟩ := known here
  rcases interference with (⟨disk, rfl⟩ | ⟨chances, -, rfl⟩) | ⟨other, -, promised⟩
  · exact ⟨begun, failed⟩
  · refine ⟨Nat.le_succ_of_le begun, fun same => ?_⟩
    simp only [Machine.restart] at same
    omega
  · rw [← promised.boot] at begun failed
    exact ⟨begun, fun same => promised.failing (failed same)⟩

omit [DecidableEq Config] in
theorem known_nothing (s : Machine Config) : Known call False s := fun impossible => impossible.elim

theorem asks {α β : Type} {operation : Section Config β} {next : β → Program (Section Config) α} {case : Prop}
    {post : α → Machine Config → Prop} (fact answered : β → Prop)
    (fits : ∀ s, Guarded s → (case → s.failed = true) → Fits s operation)
    (result : ∀ s chance, Guarded s → (case → s.failed = true) → (Policy.recoveredByRestart serde).request s operation →
      fact (s.perform serde call chance operation).1 ∧
        (answered (s.perform serde call chance operation).1 → (s.perform serde call chance operation).2.failed = true))
    (rest : ∀ value, fact value → (routerRules serde call).Triple (Known call (answered value)) (next value) post) :
    (routerRules serde call).Triple (Known call case) (.request operation next) post := by
  refine .leading (fun value s => fact value ∧ Known call (answered value) s) (known_stable case) ?_ ?_
  · rintro before value after guarded known ⟨current, may, chance, done⟩
    have held : case → before.failed = true := fun here => (known here).2 current
    have advance : Advance before (before.perform serde call chance operation).2 := guarded.perform may (fits before guarded held)
    have holds := result before chance guarded held may
    have answeredSo : value = (before.perform serde call chance operation).1 := congrArg Prod.fst done
    have left : after = (before.perform serde call chance operation).2 := congrArg Prod.snd done
    rw [answeredSo, left]
    refine ⟨advance.guarded, advance.promised, holds.1, fun here => ⟨?_, fun _ => holds.2 here⟩⟩
    rw [advance.promised.boot, current]
  · exact fun value s guarded known => rest value known.1 s guarded known.2

theorem silent {α β : Type} (operation : Section Config β) {next : β → Program (Section Config) α} {case : Prop}
    {post : α → Machine Config → Prop} (fits : ∀ s, Fits s operation)
    (rest : ∀ value, (routerRules serde call).Triple (Known call False) (next value) post) :
    (routerRules serde call).Triple (Known call case) (.request operation next) post :=
  asks (fun _ => True) (fun _ => False) (fun s _ _ => fits s) (fun _ _ _ _ _ => ⟨trivial, fun impossible => impossible.elim⟩)
    fun value _ => rest value

theorem ends {α : Type} (value : α) (case : Prop) :
    (routerRules serde call).Triple (Known call case) (.pure value) fun _ => Known call case :=
  .pure value (known_stable case) fun _ _ known => known

theorem closes {α : Type} (value : α) {case : Prop} :
    (routerRules serde call).Triple (Known call case) (.pure value) fun _ => Known call False :=
  .pure value (known_stable case) fun s _ _ => known_nothing s

theorem tryBackups_triple (backups : List Nat) :
    (routerRules serde call).Triple (Known call False) (tryBackups serde backups) fun _ => Known call False := by
  induction backups with
  | nil => exact closes none
  | cons ts older ih =>
    refine silent (.readBackup ts) (fun _ => trivial) fun file => ?_
    cases file with
    | absent => exact ih
    | unreadable e => exact ih
    | text raw =>
      simp only [Program.pure_bind]
      split
      · exact silent (.replaceLive .recovery raw) (fun _ => trivial) fun _ => closes _
      · exact ih

theorem setLatch_triple (loaded : Config × LoadOutcome) : (routerRules serde call).Triple (Known call False)
    (.request .setLatch fun _ => .pure loaded) fun loaded => Known call (loaded.2.failed = true) :=
  asks (fun _ => True) (fun _ => loaded.2.failed = true) (fun _ _ _ => trivial) (fun _ _ _ _ _ => ⟨trivial, fun _ => rfl⟩)
    fun _ _ => ends loaded _

theorem clearLatch_triple (clearing : Clearing Config) {loaded : Config × LoadOutcome} (well : loaded.2.failed = false) :
    (routerRules serde call).Triple (Known call False) (.request (.clearLatch clearing) fun _ => .pure loaded)
      fun loaded => Known call (loaded.2.failed = true) := by
  refine silent (.clearLatch clearing) (fun _ => trivial) fun _ => .pure loaded (known_stable False) fun s _ _ failed => ?_
  rw [well] at failed
  cases failed

theorem tryAutoRecoverFromBackup_triple :
    (routerRules serde call).Triple (Known call False) (tryAutoRecoverFromBackup serde) fun _ => Known call False :=
  silent .readBackups (fun _ => trivial) fun _ => tryBackups_triple _

theorem recover_triple (raw parseError : String) : (routerRules serde call).Triple (Known call False) (recover serde raw parseError)
    fun loaded => Known call (loaded.2.failed = true) := by
  simp only [recover, Program.bind_eq, Program.send_bind]
  refine silent (.quarantine raw) (fun _ => trivial) fun quarantinePath => ?_
  cases torn : tornWrite serde raw parseError with
  | some found =>
    obtain ⟨cfg, cleaned⟩ := found
    exact silent (.replaceLive .recovery cleaned) (fun _ => trivial) fun _ => clearLatch_triple .torn rfl
  | none =>
    refine .bind tryAutoRecoverFromBackup_triple fun found => ?_
    cases found with
    | none => exact setLatch_triple _
    | some found => exact clearLatch_triple .backup rfl

theorem load_triple : (routerRules serde call).Triple (Known call False) (loadWithStatus serde)
    fun loaded => Known call (loaded.2.failed = true) := by
  simp only [loadWithStatus, Program.bind_eq, Program.send_bind]
  refine silent .readLive (fun _ => trivial) fun file => ?_
  cases file with
  | absent => exact clearLatch_triple .absent rfl
  | unreadable e => exact setLatch_triple _
  | text raw =>
    refine silent (.clearLatch (.readable raw)) (fun _ => trivial) fun _ => ?_
    split
    · exact clearLatch_triple .parsed rfl
    · exact recover_triple _ _

theorem save_triple (held : Held Config) : (routerRules serde call).Triple (Known call (held.fallback = true)) (save serde held)
    fun _ => Known call False := by
  simp only [save, Program.bind_eq, Program.send_bind]
  refine asks (fun latched => latched = false → held.fallback = false) (fun _ => False) (fun _ _ _ => trivial) ?_ ?_
  · intro s chance guarded known may
    refine ⟨fun unlatched => ?_, fun impossible => impossible.elim⟩
    rw [← Bool.not_eq_true]
    intro fallback
    have latched : s.host.latch = true := may fallback (known fallback)
    exact absurd (latched.symm.trans unlatched) Bool.noConfusion
  · intro latched passed
    cases latched with
    | true => exact closes _
    | false =>
      have clean := passed rfl
      refine silent .createDir (fun _ => trivial) fun created => ?_
      cases created with
      | error e => exact closes _
      | ok done =>
        refine silent (.backUp true) (fun _ => trivial) fun _ => ?_
        split
        · exact closes _
        · exact silent (.replaceLive (.save held.fallback) _) (fun _ => clean) fun _ => closes _

abbrev Runs (serde : Serde Config) (call : CallId) (case : Prop) (program : Program (Section Config) Unit) : Prop :=
  (routerRules serde call).Triple (Known call case) program fun _ => Known call False

theorem edits {edit : Edit Config} {next : Held Config → Program (Section Config) Unit}
    (rest : ∀ held, Runs serde call (held.fallback = true) (next held)) : Runs serde call False (.request (.edit edit) next) := by
  refine asks (fun _ => True) (fun held => held.fallback = true) (fun _ _ _ => trivial) ?_ fun held _ => rest held
  intro s chance guarded _ may
  have advance : Advance s (s.perform serde call chance (.edit edit)).2 := guarded.perform may trivial
  exact ⟨trivial, fun fallback => advance.guarded.stale fallback⟩

theorem clones {case : Prop} {next : Held Config → Program (Section Config) Unit}
    (rest : ∀ held, Runs serde call (held.fallback = true) (next held)) : Runs serde call case (.request .clone next) :=
  asks (fun _ => True) (fun held => held.fallback = true) (fun _ _ _ => trivial)
    (fun _ _ guarded _ _ => ⟨trivial, guarded.stale⟩) fun held _ => rest held

theorem reload_triple : (routerRules serde call).Triple (Known call False) (reload serde)
    fun outcome => Known call (outcome.failed = true) := by
  simp only [reload, Program.bind_eq, Program.send_bind]
  refine .bind load_triple fun loaded => ?_
  obtain ⟨config, outcome⟩ := loaded
  refine asks (fun _ => True) (fun _ => outcome.failed = true) (fun _ _ known => known) ?_ fun _ _ => ends outcome _
  intro s chance guarded known may
  refine ⟨trivial, fun failed => ?_⟩
  have advance : Advance s (s.perform serde call chance _).2 := guarded.perform may known
  exact advance.promised.failing (known failed)

theorem markClean_triple : Runs serde call False markClean :=
  silent .markLoaded (fun _ => trivial) fun _ => silent (.clearLatch .marked) (fun _ => trivial) fun _ => closes _

theorem Known.less {case : Prop} {program : Program (Section Config) Unit} (runs : Runs serde call False program) :
    Runs serde call case program := runs.weaken fun s _ _ => known_nothing s

theorem restoreRecovery_triple (snapshot : Snapshot) : Runs serde call False (restoreRecovery serde snapshot) := by
  simp only [restoreRecovery, Program.bind_eq]
  refine .via (fun _ => Known call False) ?_ fun restored => ?_
  · simp only [restoreRecoverySnapshot, Program.bind_eq, Program.send_bind]
    refine silent (.readSnapshot snapshot) (fun _ => trivial) fun file => ?_
    cases file with
    | absent => exact closes _
    | unreadable e => exact closes _
    | text raw =>
      refine silent (.backUp false) (fun _ => trivial) fun _ => ?_
      refine silent (.overwriteLive raw) (fun _ => trivial) fun written => ?_
      cases written with
      | error e => exact closes _
      | ok done =>
        cases reads : serde.fromStr raw with
        | ok cfg => exact silent (.clearLatch .snapshot) (fun _ => trivial) fun _ => closes _
        | error e => exact closes _
  · cases restored with
    | error e => exact closes _
    | ok done =>
      refine .bind reload_triple fun outcome => Known.less ?_
      split
      · exact closes _
      · exact markClean_triple

theorem reconstruction_triple (found : Config) : Runs serde call False (commitArtifactReconstruction serde found) := by
  simp only [commitArtifactReconstruction, Program.bind_eq, Program.send_bind]
  split
  · exact closes _
  · rename_i json _
    refine silent .createDir (fun _ => trivial) fun created => ?_
    cases created with
    | error e => exact closes _
    | ok done =>
      refine silent (.backUp false) (fun _ => trivial) fun _ => ?_
      refine silent (.replaceLive .reconstruction json) (fun _ => trivial) fun written => ?_
      cases written with
      | error e => exact closes _
      | ok done => exact .bind reload_triple fun _ => Known.less markClean_triple

theorem call_triple {program : Program (Section Config) Unit} (body : Call serde program) : Runs serde call False program := by
  cases body with
  | check =>
    simp only [load, Program.bind_eq]
    exact .via (fun _ => Known call False) (.bind load_triple fun _ => closes _) fun _ => closes _
  | edit edit =>
    simp only [editAndSave, Program.bind_eq, Program.send_bind]
    exact edits fun held => .bind (save_triple held) fun _ => closes _
  | editCopy edit undo =>
    simp only [editThenSave, Program.bind_eq, Program.send_bind]
    refine edits fun _ => clones fun held => .bind (save_triple held) fun saved => ?_
    cases saved with
    | ok done => exact closes _
    | error e =>
      cases undo with
      | none => exact closes _
      | some undo => exact edits fun _ => closes _
  | zones zones =>
    simp only [ensureDefaultZones, Program.bind_eq, Program.send_bind]
    refine edits fun _ => silent .maySave (fun _ => trivial) fun may => ?_
    cases may with
    | false => exact closes _
    | true => exact clones fun held => .bind (save_triple held) fun _ => closes _
  | restore snapshot => exact restoreRecovery_triple snapshot
  | reconstruct found => exact reconstruction_triple found

omit [DecidableEq Config] in
theorem Guarded.files (guarded : Guarded s) (disk : Disk) : Guarded { s with host := { s.host with disk } } :=
  ⟨guarded.stale, guarded.unsaved, guarded.settled⟩

theorem router_sound : (routerSystem serde (.recoveredByRestart serde)).Sound (Machine.Failed serde) Guarded (fun _ => Promised)
    fun _ _ => True where
  initial _ failed := ⟨failed.guarded, fun _ => trivial⟩
  moves before after guarded moved := by
    refine ⟨?_, fun _ _ => trivial⟩
    rcases moved with ⟨disk, rfl⟩ | ⟨chances, obliging, rfl⟩
    · exact guarded.files disk
    · exact guarded.restart obliging
  others _ _ _ _ _ _ _ _ _ := trivial
  bodies call program body :=
    ((call_triple body).weaken fun s _ _ => known_nothing s).weaken_post fun _ _ _ _ => trivial
  stops _ _ _ cut := cut.elim

theorem failed_load_keeps_the_file (reached : (routerSystem serde (.recoveredByRestart serde)).Reaches (Machine.Failed serde) s) :
    Kept s.log := (router_sound.reaches reached).kept

/-- Configurations are their own text. -/
def sampleSerde : Serde String where
  default := "\x7b\x7d"
  fromStr raw := if raw = "\x7b" then .error "EOF while parsing an object at line 1 column 1" else .ok raw
  firstValue _ := none
  toStringPretty := .ok
  firstValue_reads _ _ _ none_ := by cases none_

def sampleChance (index : Nat) : Chance := ⟨index, .ok (), true, true, true, .absent⟩

def cutOff : Machine String where
  host := ⟨⟨.text "\x7b", [], []⟩, false, ⟨"", false⟩, false⟩
  boot := 0
  loading := []
  log := []

theorem cutOff_failed : (cutOff.restart sampleSerde sampleChance).Failed sampleSerde := ⟨cutOff, rfl, sampleChance, rfl, by decide +kernel⟩

abbrev RouterTurn := Turn (Machine String) (Section String) CallId Unit

def checks (call : CallId) : List RouterTurn := Turn.whole call ((load sampleSerde).bind fun _ => .pure ()) 5

def sets (call : CallId) (config : String) : List RouterTurn := Turn.whole call (editAndSave sampleSerde (.modify fun _ => config)) 5

def repairs : List RouterTurn :=
  [.move fun s => some { s with host := { s.host with disk := { s.host.disk with live := .text "\x7b\"lans\":[1]\x7d" } } }]

def restarts : List RouterTurn := [.move fun s => some (s.restart sampleSerde sampleChance)]

def repairedInPlace : List RouterTurn := repairs ++ checks (1, 0) ++ sets (1, 1) "\x7b\"lans\":[]\x7d"

def repairedForRestart : List RouterTurn :=
  checks (1, 0) ++ sets (1, 1) "\x7b\"lans\":[]\x7d" ++ repairs ++ restarts ++ checks (2, 0) ++ sets (2, 1) "\x7b\"lans\":[1,2]\x7d"

def serves (allowed : Machine String → {β : Type} → Section String β → Bool) (call : CallId) (index : Nat) {β : Type}
    (s : Machine String) (operation : Section String β) : Option (Machine String × β) :=
  if s.boot = call.1 ∧ allowed s operation = true then some (s.perform sampleSerde call (sampleChance index) operation).swap else none

variable {policy : Policy String}

theorem serves_commits {allowed : Machine String → {β : Type} → Section String β → Bool}
    (checked : ∀ s {β : Type} (operation : Section String β), allowed s operation = true → policy.request s operation)
    (call : CallId) (index : Nat) {β : Type} (s : Machine String) (operation : Section String β) (after : Machine String) (value : β)
    (served : serves allowed call index s operation = some (after, value)) :
    (routerSystem sampleSerde policy).commits call s operation value after := by
  unfold serves at served
  split at served
  · rename_i may
    exact ⟨may.1, checked s operation may.2, sampleChance index, (Prod.swap_eq_iff_eq_swap.mp (Option.some.inj served)).symm⟩
  · cases served

theorem turns_lawful (policy : Policy String) (obliging : policy.start sampleChance) :
    (∀ call, ∀ turn ∈ checks call, turn.Lawful (routerSystem sampleSerde policy)) ∧
      (∀ call config, ∀ turn ∈ sets call config, turn.Lawful (routerSystem sampleSerde policy)) ∧
      (∀ turn ∈ repairs, turn.Lawful (routerSystem sampleSerde policy)) ∧
      ∀ turn ∈ restarts, turn.Lawful (routerSystem sampleSerde policy) := by
  refine ⟨fun call => ?_, fun call config => ?_, ?_, ?_⟩
  · simp [checks, Turn.whole, Turn.Lawful, routerSystem, Call.check]
  · simp [sets, Turn.whole, Turn.Lawful, routerSystem, Call.edit]
  · simp only [repairs, List.mem_singleton, forall_eq, Turn.Lawful, Option.some.injEq]
    exact fun before after moved => .inl ⟨_, moved.symm⟩
  · simp only [restarts, List.mem_singleton, forall_eq, Turn.Lawful, Option.some.injEq]
    exact fun before after moved => .inr ⟨sampleChance, obliging, moved.symm⟩

def recoveredByRestartNow (s : Machine String) : {β : Type} → Section String β → Bool
  | _, .clearLatch (.readable raw) => !s.failed || !(sampleSerde.fromStr raw).isOk
  | _, .clearLatch _ => !s.failed
  | _, .testLatch fallback => !fallback || !s.failed || s.host.latch
  | _, _ => true

theorem recoveredByRestartNow_checked (s : Machine String) {β : Type} (operation : Section String β)
    (may : recoveredByRestartNow s operation = true) : (Policy.recoveredByRestart sampleSerde).request s operation := by
  cases operation with
  | clearLatch clearing =>
    cases clearing with
    | readable raw =>
      intro failed
      simp only [recoveredByRestartNow, failed, Bool.not_true, Bool.false_or, Bool.not_eq_true'] at may
      cases reads : sampleSerde.fromStr raw with
      | ok cfg =>
        rw [reads] at may
        cases may
      | error e => exact ⟨e, rfl⟩
    | _ => exact (Bool.not_eq_true' s.failed).mp may
  | testLatch fallback =>
    intro fell failed
    simpa [recoveredByRestartNow, fell, failed] using may
  | _ => trivial

def savedWell (log : List Event) : Bool :=
  match log with
  | .saved false over_ :: .settled true :: _ => over_ ≠ .absent
  | _ => false

theorem failed_load_keeps_the_file_sample : ∃ s : Machine String,
    (routerSystem sampleSerde (.recoveredByRestart sampleSerde)).Reaches (Machine.Failed sampleSerde) s ∧ savedWell s.log = true ∧ Kept s.log := by
  obtain ⟨checked, set, repaired, restarted⟩ := turns_lawful (.recoveredByRestart sampleSerde) fun _ => rfl
  have lawful : ∀ turn ∈ repairedForRestart, turn.Lawful (routerSystem sampleSerde (.recoveredByRestart sampleSerde)) := by
    intro turn member
    simp only [repairedForRestart, List.mem_append] at member
    rcases member with ((((among | among) | among) | among) | among) | among
    · exact checked _ turn among
    · exact set _ _ turn among
    · exact repaired turn among
    · exact restarted turn among
    · exact checked _ turn among
    · exact set _ _ turn among
  obtain ⟨s, reached, passed⟩ := @conduct_reaches _ _ _ _ _ (routerSystem sampleSerde (.recoveredByRestart sampleSerde))
    (serves fun s _ operation => recoveredByRestartNow s operation) (Machine.Failed sampleSerde) (cutOff.restart sampleSerde sampleChance)
    cutOff_failed (serves_commits recoveredByRestartNow_checked) repairedForRestart lawful (fun s => savedWell s.log) (by decide +kernel)
  exact ⟨s, reached, passed, failed_load_keeps_the_file reached⟩

/-- The last event is a save of what descends from the default over a file. -/
def savedBadly (log : List Event) : Bool :=
  match log with
  | .saved true over_ :: earlier => over_ ≠ .absent && !restoredSince earlier
  | _ => false

theorem savedBadly_lost {log : List Event} (lost : savedBadly log = true) : ¬Kept log := by
  unfold savedBadly at lost
  split at lost
  · rename_i over_ earlier
    simp only [Bool.and_eq_true, decide_eq_true_eq, Bool.not_eq_true'] at lost
    intro kept
    exact absurd (kept.saves [] over_ earlier rfl lost.1) (by rw [lost.2]; exact Bool.false_ne_true)
  · cases lost

theorem a_check_unlocks_the_default :
    ¬∀ s : Machine String, (routerSystem sampleSerde .any).Reaches (Machine.Failed sampleSerde) s → Kept s.log := by
  intro kept
  obtain ⟨checked, set, repaired, -⟩ := turns_lawful .any trivial
  have lawful : ∀ turn ∈ repairedInPlace, turn.Lawful (routerSystem sampleSerde .any) := by
    intro turn member
    simp only [repairedInPlace, List.mem_append] at member
    rcases member with (among | among) | among
    · exact repaired turn among
    · exact checked _ turn among
    · exact set _ _ turn among
  obtain ⟨s, reached, passed⟩ := @conduct_reaches _ _ _ _ _ (routerSystem sampleSerde .any) (serves fun _ _ _ => true)
    (Machine.Failed sampleSerde) (cutOff.restart sampleSerde sampleChance) cutOff_failed (serves_commits fun _ _ _ _ => trivial)
    repairedInPlace lawful (fun s => savedBadly s.log) (by decide +kernel)
  exact savedBadly_lost passed (kept s reached)

end Router
