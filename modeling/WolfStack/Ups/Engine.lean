import WolfStack.Auth.ClusterSecret
import Mathlib.Data.List.Sort

/-! The staged shutdown of `ups/mod.rs`. A stage is to fire once in an outage, and a gentle one before a
harsh one, whatever the operator does to the stages meanwhile. What the commands of an action log is an
input, as is the wording of a battery fault; a tick reads the clock once. -/

open scoped List

namespace Ups

inductive UpsAction where
  | stopVms | stopContainers | stopShares | shutdownHost
deriving DecidableEq, Repr

def UpsAction.label : UpsAction → String
  | .stopVms => "stop VMs"
  | .stopContainers => "stop containers"
  | .stopShares => "stop shares"
  | .shutdownHost => "shut down host"

structure UpsStage where
  batteryPercent : Nat
  actions : List UpsAction
deriving DecidableEq, Repr

def UpsStage.acts (stage : UpsStage) : List (Nat × UpsAction) := stage.actions.map (stage.batteryPercent, ·)

structure UpsConfig where
  enabled : Bool
  ups : String
  stages : List UpsStage

structure UpsLiveStatus where
  onBattery : Bool
  charge : Option Nat
  runtimeSecs : Option Nat
  replaceBattery : Bool

structure UpsLogEntry where
  timestamp : Nat
  kind : String
  message : String

structure UpsRuntime where
  onBatterySince : Option Nat
  fired : List Nat
  lastStatus : Option UpsLiveStatus
  lastError : Option String
  batteryFault : Bool
  log : List UpsLogEntry

def logKeep : Nat := 200

/-- A process begins with the log that the file has, and knows of no outage. -/
def UpsRuntime.new (persisted : List UpsLogEntry) : UpsRuntime := ⟨none, [], none, none, false, persisted⟩

inductive AlertCategory where
  | lifecycle | threshold

/-- What a tick does, and that it enters a stage. -/
inductive Effect where
  | log (kind message : String)
  | alert (category : AlertCategory) (title message : String)
  | enter (stage : UpsStage)
  | act (percent : Nat) (action : UpsAction)

def Effect.entered : Effect → Option UpsStage
  | .enter stage => some stage
  | _ => none

def Effect.acted : Effect → Option (Nat × UpsAction)
  | .act percent action => some (percent, action)
  | _ => none

/-- How `upsc` ends; `lost` when the task that runs it dies. -/
inductive Poll where
  | read (status : UpsLiveStatus)
  | unreadable (error : String)
  | lost

structure Tick where
  config : UpsConfig
  poll : Poll
  now : Nat
  faultSummary : Option String
  outcome : Nat → UpsAction → List (String × String)

def shown (n : Option Nat) : String := (n.map toString).getD "?"

/-- The edge of the battery's health. -/
def healthEffects (t : Tick) (runtime : UpsRuntime) (status : UpsLiveStatus) : List Effect :=
  if runtime.batteryFault = status.replaceBattery then []
  else [.log "battery" (match t.faultSummary with
    | some why => "UPS '" ++ t.config.ups ++ "' battery needs replacing: " ++ why
    | none => "UPS '" ++ t.config.ups ++ "' no longer reports a battery fault")]

/-- Power fails, or comes back. -/
def UpsRuntime.turn (runtime : UpsRuntime) (now : Nat) (status : UpsLiveStatus) : UpsRuntime :=
  match status.onBattery, runtime.onBatterySince with
  | true, none => { runtime with onBatterySince := some now }
  | false, some _ => { runtime with onBatterySince := none, fired := [] }
  | _, _ => runtime

def turnEffects (t : Tick) (runtime : UpsRuntime) (status : UpsLiveStatus) : List Effect :=
  match status.onBattery, runtime.onBatterySince with
  | true, none =>
    let msg := "UPS '" ++ t.config.ups ++ "' on battery (" ++ shown status.charge ++ "% charge, " ++
      shown (status.runtimeSecs.map (· / 60)) ++ " min runtime reported)"
    [.log "on_battery" msg, .alert .lifecycle "UPS on battery" msg] ++ if status.charge = none then
      [.log "error" "UPS reports no battery.charge — staged shutdown cannot trigger on this driver"] else []
  | false, some outset =>
    let msg := "UPS '" ++ t.config.ups ++ "' back on mains after " ++ toString ((t.now - outset) / 60) ++ " min (" ++
      shown status.charge ++ "% charge)"
    [.log "online" msg, .alert .lifecycle "UPS power restored" msg]
  | _, _ => []

/-- The stages that are due, those of higher thresholds first. -/
def due (stages : List UpsStage) (fired : List Nat) (status : UpsLiveStatus) : List UpsStage :=
  match status.onBattery, status.charge with
  | true, some charge => (stages.filter fun s => charge ≤ s.batteryPercent ∧ s.batteryPercent ∉ fired).mergeSort
      fun a b => decide (b.batteryPercent ≤ a.batteryPercent)
  | _, _ => []

/-- One turn of the loop over the stages that are due. -/
def stageEffects (t : Tick) (status : UpsLiveStatus) (stage : UpsStage) : List Effect :=
  let msg := "battery at " ++ shown status.charge ++ "% (≤" ++ toString stage.batteryPercent ++ "% stage): " ++
    ", ".intercalate (stage.actions.map UpsAction.label)
  [.enter stage, .log "stage" msg, .alert .threshold "UPS shutdown stage triggered" msg] ++ stage.actions.flatMap fun action =>
    .act stage.batteryPercent action :: (t.outcome stage.batteryPercent action).map fun entry => .log entry.1 entry.2

def Effect.entry (now : Nat) : Effect → Option UpsLogEntry
  | .log kind message => some ⟨now, kind, message⟩
  | _ => none

/-- The log with what a tick has added. -/
def UpsRuntime.logged (runtime : UpsRuntime) (now : Nat) (effects : List Effect) : UpsRuntime :=
  let log := runtime.log ++ effects.filterMap (Effect.entry now)
  { runtime with log := log.drop (log.length - logKeep) }

def engineTick (t : Tick) (runtime : UpsRuntime) : UpsRuntime × List Effect :=
  if Auth.trim t.config.ups = "" then (runtime, [])
  else match t.poll with
    | .lost => (runtime, [])
    | .unreadable error => ({ runtime with lastError := some error }, [])
    | .read status =>
      let health := healthEffects t runtime status
      let noted := { runtime with lastError := none, batteryFault := status.replaceBattery, lastStatus := some status }
      if t.config.enabled then
        let turned := noted.turn t.now status
        let stages := due t.config.stages turned.fired status
        let effects := health ++ turnEffects t noted status ++ stages.flatMap (stageEffects t status)
        ({ turned with fired := stages.foldl (fun fired (s : UpsStage) => fired.insert s.batteryPercent) turned.fired }.logged t.now effects, effects)
      else (noted.logged t.now health, health)

def entered (effects : List Effect) : List UpsStage := effects.filterMap Effect.entered
def acted (effects : List Effect) : List (Nat × UpsAction) := effects.filterMap Effect.acted

/-- A process that knows of no outage has no stage behind it. -/
def UpsRuntime.Sound (runtime : UpsRuntime) : Prop := runtime.onBatterySince = none → runtime.fired = []

/-- The reading that an armed engine goes by. -/
def Tick.armed (t : Tick) : Option UpsLiveStatus :=
  match t.poll with
  | .read status => if Auth.trim t.config.ups ≠ "" ∧ t.config.enabled = true then some status else none
  | _ => none

def Tick.onMains (t : Tick) : Bool := t.armed.any fun status => !status.onBattery

/-- The stages of a tick, if these thresholds have been spent. -/
def Tick.plan (t : Tick) (spent : List Nat) : List UpsStage := (t.armed.map (due t.config.stages spent)).getD []

variable {t : Tick} {runtime : UpsRuntime} {status : UpsLiveStatus} {stages : List UpsStage}

theorem quiet_health : entered (healthEffects t runtime status) = [] ∧ acted (healthEffects t runtime status) = [] := by
  unfold healthEffects
  split <;> exact ⟨rfl, rfl⟩

theorem quiet_turn : entered (turnEffects t runtime status) = [] ∧ acted (turnEffects t runtime status) = [] := by
  unfold turnEffects
  split
  · split <;> exact ⟨rfl, rfl⟩
  · exact ⟨rfl, rfl⟩
  · exact ⟨rfl, rfl⟩

theorem entered_stage (stage : UpsStage) : entered (stageEffects t status stage) = [stage] := by
  have rest : (stage.actions.flatMap fun action => Effect.act stage.batteryPercent action ::
      (t.outcome stage.batteryPercent action).map fun entry => .log entry.1 entry.2).filterMap Effect.entered = [] := by
    rw [List.filterMap_eq_nil_iff]
    intro effect member
    obtain ⟨action, -, here⟩ := List.mem_flatMap.mp member
    rcases List.mem_cons.mp here with rfl | logged
    · rfl
    · obtain ⟨entry, -, rfl⟩ := List.mem_map.mp logged
      rfl
  simp [entered, stageEffects, rest, List.filterMap_cons, Effect.entered]

theorem acted_stage (stage : UpsStage) : acted (stageEffects t status stage) = stage.acts := by
  have rest : ∀ actions : List UpsAction, (actions.flatMap fun action => Effect.act stage.batteryPercent action ::
      (t.outcome stage.batteryPercent action).map fun entry => .log entry.1 entry.2).filterMap Effect.acted =
        actions.map (stage.batteryPercent, ·) := by
    intro actions
    induction actions with
    | nil => rfl
    | cons action actions ih =>
      have logs : ((t.outcome stage.batteryPercent action).map fun entry => Effect.log entry.1 entry.2).filterMap Effect.acted = [] := by
        simp [List.filterMap_eq_nil_iff, Effect.acted]
      rw [List.flatMap_cons, List.filterMap_append, ih, List.filterMap_cons, logs]
      rfl
  simp [acted, stageEffects, rest, List.filterMap_cons, Effect.acted, UpsStage.acts]

theorem of_stages : entered (stages.flatMap (stageEffects t status)) = stages ∧
    acted (stages.flatMap (stageEffects t status)) = stages.flatMap UpsStage.acts := by
  have each := @entered_stage t status
  have actions := @acted_stage t status
  unfold entered at each ⊢
  unfold acted at actions ⊢
  constructor <;> simp [List.filterMap_flatMap, each, actions]

theorem mem_latched (stages : List UpsStage) (fired : List Nat) (p : Nat) :
    p ∈ stages.foldl (fun fired s => fired.insert s.batteryPercent) fired ↔ p ∈ fired ∨ p ∈ stages.map UpsStage.batteryPercent := by
  induction stages generalizing fired with
  | nil => simp
  | cons stage stages ih => simp [ih, or_assoc, or_left_comm]

/-- What comes of a tick, for the stages. -/
structure Ticked (t : Tick) (latch : List Nat) (after : UpsRuntime × List Effect) : Prop where
  sound : after.1.Sound
  fired : ∀ p, p ∈ after.1.fired ↔ t.onMains = false ∧ (p ∈ latch ∨ p ∈ (t.plan latch).map UpsStage.batteryPercent)
  entered : entered after.2 = t.plan latch
  acted : acted after.2 = (t.plan latch).flatMap UpsStage.acts

theorem ticked_idle {after : UpsRuntime × List Effect} (unarmed : t.armed = none) (sound : runtime.Sound)
    (since : after.1.onBatterySince = runtime.onBatterySince) (fired : after.1.fired = runtime.fired)
    (quiet : Ups.entered after.2 = [] ∧ Ups.acted after.2 = []) : Ticked t runtime.fired after := by
  have nothing : t.plan runtime.fired = [] := by simp only [Tick.plan, unarmed, Option.map_none, Option.getD_none]
  refine ⟨fun none_ => fired.trans (sound (since.symm.trans none_)), fun p => ?_, ?_, ?_⟩
  · simp [fired, nothing, Tick.onMains, unarmed]
  · rw [quiet.1, nothing]
  · rw [quiet.2, nothing]
    rfl

theorem turn_battery (battery : status.onBattery = true) (now : Nat) :
    (runtime.turn now status).onBatterySince ≠ none ∧ (runtime.turn now status).fired = runtime.fired := by
  cases since : runtime.onBatterySince <;> simp [UpsRuntime.turn, battery, since]

theorem turn_mains (mains : status.onBattery = false) (sound : runtime.Sound) (now : Nat) : (runtime.turn now status).fired = [] := by
  cases since : runtime.onBatterySince with
  | none => simp [UpsRuntime.turn, mains, since, sound since]
  | some outset => simp [UpsRuntime.turn, mains, since]

theorem tick_spec (t : Tick) (sound : runtime.Sound) : Ticked t runtime.fired (engineTick t runtime) := by
  unfold engineTick
  split
  · rename_i blank
    have unarmed : t.armed = none := by cases poll : t.poll <;> simp [Tick.armed, poll, blank]
    exact ticked_idle unarmed sound rfl rfl ⟨rfl, rfl⟩
  · rename_i target
    cases poll : t.poll with
    | lost => exact ticked_idle (by simp [Tick.armed, poll]) sound rfl rfl ⟨rfl, rfl⟩
    | unreadable error => exact ticked_idle (by simp [Tick.armed, poll]) sound rfl rfl ⟨rfl, rfl⟩
    | read status =>
      dsimp only
      split
      · rename_i enabled
        have armed : t.armed = some status := by simp [Tick.armed, poll, target, enabled]
        have plan : t.plan runtime.fired = due t.config.stages runtime.fired status := by simp [Tick.plan, armed]
        generalize noted : ({ runtime with lastError := none, batteryFault := status.replaceBattery, lastStatus := some status } : UpsRuntime) = now
        have calm : now.Sound := by rw [← noted]; exact sound
        have same : now.fired = runtime.fired := by rw [← noted]
        obtain ⟨health, healthActs⟩ := @quiet_health t runtime status
        obtain ⟨turn, turnActs⟩ := @quiet_turn t now status
        obtain ⟨stages, stageActs⟩ := @of_stages t status (due t.config.stages (now.turn t.now status).fired status)
        simp only [entered, acted] at health healthActs turn turnActs stages stageActs
        have chosen : due t.config.stages (now.turn t.now status).fired status = t.plan runtime.fired := by
          rw [plan]
          cases side : status.onBattery with
          | false => simp [due, side]
          | true => rw [(turn_battery side t.now).2, same]
        refine ⟨?_, fun p => ?_, ?_, ?_⟩
        · intro none_
          cases side : status.onBattery with
          | true => exact absurd none_ (turn_battery side t.now).1
          | false => simp [UpsRuntime.logged, turn_mains side calm, due, side]
        · rw [UpsRuntime.logged, mem_latched, chosen]
          cases side : status.onBattery with
          | true => simp [(turn_battery side t.now).2, same, Tick.onMains, armed, side]
          | false => simp [turn_mains side calm, Tick.onMains, armed, side, plan, due]
        · rw [entered, List.filterMap_append, List.filterMap_append, health, turn, stages, chosen]
          rfl
        · rw [acted, List.filterMap_append, List.filterMap_append, healthActs, turnActs, stageActs, chosen]
          rfl
      · rename_i disarmed
        exact ticked_idle (by simp [Tick.armed, poll, disarmed]) sound rfl rfl quiet_health

/-- A tick that has been, as far as it got before the process died, if it did. -/
structure Entry where
  tick : Tick
  effects : List Effect
  died : Bool

def Entry.entered (entry : Entry) : List UpsStage := Ups.entered entry.effects
def Entry.acted (entry : Entry) : List (Nat × UpsAction) := Ups.acted entry.effects

/-- The engine takes an outage to be over, or knows of none any more. -/
def Entry.ends (entry : Entry) : Bool := entry.died || entry.tick.onMains

/-- The node, with its ticks so far, the newest first. -/
structure Node where
  runtime : UpsRuntime
  history : List Entry

inductive Event where
  | tick (t : Tick)
  | die (t : Tick) (reached : Nat) (persisted : List UpsLogEntry)

def Node.step (node : Node) : Event → Node
  | .tick t => ⟨(engineTick t node.runtime).1, ⟨t, (engineTick t node.runtime).2, false⟩ :: node.history⟩
  | .die t reached persisted => ⟨.new persisted, ⟨t, (engineTick t node.runtime).2.take reached, true⟩ :: node.history⟩

def Node.run (persisted : List UpsLogEntry) (events : List Event) : Node := events.foldl Node.step ⟨.new persisted, []⟩

/-- The thresholds of the stages entered since an outage last ended. -/
def spent (history : List Entry) : List Nat :=
  (history.takeWhile fun entry => !entry.ends).flatMap fun entry => entry.entered.map UpsStage.batteryPercent

/-- Each tick enters the stages that are due by the history alone. -/
def Exact : List Entry → Prop
  | [] => True
  | entry :: earlier => (entry.entered <+: entry.tick.plan (spent earlier) ∧
      entry.acted <+: (entry.tick.plan (spent earlier)).flatMap UpsStage.acts ∧
      (entry.died = false → entry.entered = entry.tick.plan (spent earlier) ∧
        entry.acted = (entry.tick.plan (spent earlier)).flatMap UpsStage.acts)) ∧ Exact earlier

theorem plan_congr {these those : List Nat} (same : ∀ p, p ∈ these ↔ p ∈ those) (t : Tick) : t.plan these = t.plan those := by
  have each : due t.config.stages these = due t.config.stages those := by
    funext status
    simp only [due, same]
  rw [Tick.plan, each, Tick.plan]

theorem mem_spent_cons {entry : Entry} {earlier : List Entry} {p : Nat} :
    p ∈ spent (entry :: earlier) ↔ entry.ends = false ∧ (p ∈ entry.entered.map UpsStage.batteryPercent ∨ p ∈ spent earlier) := by
  cases ends : entry.ends <;> simp [spent, ends]

/-- The latch holds what the history has spent. -/
structure Node.Sound (node : Node) : Prop where
  runtime : node.runtime.Sound
  latch : ∀ p, p ∈ node.runtime.fired ↔ p ∈ spent node.history
  exact_ : Exact node.history

theorem Node.Sound.step {node : Node} (sound : node.Sound) (event : Event) : (node.step event).Sound := by
  cases event with
  | tick t =>
    have ticked := tick_spec t sound.runtime
    have plan := plan_congr sound.latch t
    have entered : (Entry.mk t (engineTick t node.runtime).2 false).entered = t.plan (spent node.history) :=
      ticked.entered.trans plan
    have acted : (Entry.mk t (engineTick t node.runtime).2 false).acted = (t.plan (spent node.history)).flatMap UpsStage.acts := by
      rw [← plan]
      exact ticked.acted
    refine ⟨ticked.sound, fun p => ?_, ⟨?_, ?_, fun _ => ⟨entered, acted⟩⟩, sound.exact_⟩
    · rw [Node.step, mem_spent_cons, entered, ← plan, ← sound.latch, or_comm]
      simpa [Entry.ends] using ticked.fired p
    · exact entered ▸ List.prefix_rfl
    · exact acted ▸ List.prefix_rfl
  | die t reached persisted =>
    have ticked := tick_spec t sound.runtime
    have plan := plan_congr sound.latch t
    refine ⟨fun _ => rfl, fun p => ?_, ⟨?_, ?_, fun alive => by cases alive⟩, sound.exact_⟩
    · rw [Node.step, mem_spent_cons]
      simp [UpsRuntime.new, Entry.ends]
    · rw [← plan, ← ticked.entered]
      exact (List.take_prefix _ _).filterMap _
    · rw [← plan, ← ticked.acted]
      exact (List.take_prefix _ _).filterMap _

theorem run_sound (persisted : List UpsLogEntry) (events : List Event) : (Node.run persisted events).Sound := by
  have start : Node.Sound ⟨.new persisted, []⟩ := ⟨fun _ => rfl, fun p => by simp [UpsRuntime.new, spent], trivial⟩
  have steps : ∀ node : Node, node.Sound → (events.foldl Node.step node).Sound := by
    induction events with
    | nil => exact fun _ sound => sound
    | cons event events ih => exact fun node sound => ih _ (sound.step event)
  exact steps _ start

/-- In an outage a threshold is spent by one tick only, and a gentle stage is entered before a harsh one. -/
structure Staged (history : List Entry) : Prop where
  exact_ : Exact history
  once : ∀ later second between first earlier, history = later ++ second :: (between ++ first :: earlier) →
    ∀ s ∈ second.entered, ∀ s' ∈ first.entered, s.batteryPercent = s'.batteryPercent → ∃ entry ∈ between ++ [first], entry.ends = true
  gentle : ∀ later entry earlier, history = later ++ entry :: earlier → ∀ harsh ∈ entry.entered, ∀ stage ∈ entry.tick.config.stages,
    harsh.batteryPercent < stage.batteryPercent → stage.batteryPercent ∈ spent earlier ∨ [stage, harsh] <+ entry.entered

theorem Exact.at_ {later : List Entry} {entry : Entry} {earlier : List Entry} (exact_ : Exact (later ++ entry :: earlier)) :
    Exact (entry :: earlier) := by
  induction later with
  | nil => exact exact_
  | cons _ later ih => exact ih exact_.2

theorem mem_due {used : List Nat} {s : UpsStage} (member : s ∈ due stages used status) :
    ∃ charge, status.onBattery = true ∧ status.charge = some charge ∧ charge ≤ s.batteryPercent ∧ s.batteryPercent ∉ used := by
  unfold due at member
  split at member
  · rename_i charge battery reported
    obtain ⟨low, fresh⟩ := of_decide_eq_true (List.mem_filter.mp (List.mem_mergeSort.mp member)).2
    exact ⟨charge, battery, reported, low, fresh⟩
  · cases member

theorem mem_plan {used : List Nat} {s : UpsStage} (member : s ∈ t.plan used) :
    ∃ status, t.plan used = due t.config.stages used status ∧ s ∈ due t.config.stages used status := by
  unfold Tick.plan at member ⊢
  cases armed : t.armed with
  | none => simp [armed] at member
  | some status => exact ⟨status, by simp, by simpa [armed] using member⟩

theorem spent_through {between : List Entry} {first : Entry} {earlier : List Entry} (on : ∀ entry ∈ between ++ [first], entry.ends = false)
    {s : UpsStage} (entered : s ∈ first.entered) : s.batteryPercent ∈ spent (between ++ first :: earlier) := by
  induction between with
  | nil => exact mem_spent_cons.mpr ⟨on first List.mem_cons_self, .inl (List.mem_map_of_mem entered)⟩
  | cons entry between ih =>
    exact mem_spent_cons.mpr ⟨on entry List.mem_cons_self, .inr (ih fun e member => on e (List.mem_cons_of_mem _ member))⟩

/-- Where a stage is due, those of higher thresholds are so before it, or are spent. -/
theorem due_first {used : List Nat} {front back : List UpsStage} {harsh stage : UpsStage}
    (shape : due stages used status = front ++ harsh :: back) (configured : stage ∈ stages)
    (higher : harsh.batteryPercent < stage.batteryPercent) : stage.batteryPercent ∈ used ∨ stage ∈ front := by
  obtain ⟨charge, battery, reported, low, -⟩ := mem_due (shape ▸ List.mem_append_right front List.mem_cons_self)
  have listed : due stages used status = (stages.filter fun s => charge ≤ s.batteryPercent ∧ s.batteryPercent ∉ used).mergeSort
      fun a b => decide (b.batteryPercent ≤ a.batteryPercent) := by simp only [due, battery, reported]
  have sorted : (due stages used status).Pairwise fun a b => decide (b.batteryPercent ≤ a.batteryPercent) = true := by
    rw [listed]
    apply List.pairwise_mergeSort
    · simpa using fun (a b c : UpsStage) first second => Nat.le_trans second first
    · simpa using fun (a b : UpsStage) => Nat.le_total b.batteryPercent a.batteryPercent
  by_cases spent_ : stage.batteryPercent ∈ used
  · exact .inl spent_
  · have member : stage ∈ due stages used status := by
      rw [listed]
      exact List.mem_mergeSort.mpr (List.mem_filter.mpr ⟨configured, decide_eq_true ⟨Nat.le_trans low (Nat.le_of_lt higher), spent_⟩⟩)
    rw [shape] at sorted member
    rcases List.mem_append.mp member with early | late
    · exact .inr early
    · rcases List.mem_cons.mp late with rfl | later
      · exact absurd higher (Nat.lt_irrefl _)
      · have behind := of_decide_eq_true (List.rel_of_pairwise_cons (List.pairwise_append.mp sorted).2.1 later)
        exact absurd behind (Nat.not_le.mpr higher)

/-- Every stage is entered when it is due, once for its threshold in an outage, and those of higher ones first. -/
theorem staged_shutdown (persisted : List UpsLogEntry) (events : List Event) : Staged (Node.run persisted events).history := by
  have exact_ := (run_sound persisted events).exact_
  refine ⟨exact_, ?_, ?_⟩
  · intro later second between first earlier split s entered s' before same
    by_contra none_
    have on : ∀ entry ∈ between ++ [first], entry.ends = false := by simpa [or_imp, forall_and] using none_
    rw [split] at exact_
    obtain ⟨status, -, due_⟩ := mem_plan (exact_.at_.1.1.subset entered)
    obtain ⟨-, -, -, -, fresh⟩ := mem_due due_
    exact fresh (same ▸ spent_through on before)
  · intro later entry earlier split harsh entered stage configured higher
    rw [split] at exact_
    obtain ⟨front, back, shape⟩ := List.append_of_mem entered
    obtain ⟨rest, whole⟩ := exact_.at_.1.1
    obtain ⟨status, plan, -⟩ := mem_plan (exact_.at_.1.1.subset entered)
    rw [plan, shape, List.append_assoc, List.cons_append] at whole
    refine (due_first whole.symm configured higher).imp_right fun early => ?_
    rw [shape]
    exact (List.singleton_sublist.mpr early).append (List.singleton_sublist.mpr List.mem_cons_self)

end Ups
