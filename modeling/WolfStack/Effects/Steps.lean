import Mathlib.Init

/-! Runs of a step function: which events a run consists of, where each of them happens,
and what holds wherever a run leads if no event happens where it must not. -/

universe u v

namespace Effects
variable {σ : Type u} {ε : Type v} {step : σ → ε → Option σ} {allowed : σ → ε → Prop} {state after : σ}
  {event : ε} {events more : List ε}

def runSteps (step : σ → ε → Option σ) : List ε → σ → Option σ
  | [], state => some state
  | event :: events, state => (step state event).bind (runSteps step events)

def Along (step : σ → ε → Option σ) (allowed : σ → ε → Prop) : List ε → σ → Prop
  | [], _ => True
  | event :: events, state => allowed state event ∧ ∀ next, step state event = some next → Along step allowed events next

instance Along.decidable [∀ state event, Decidable (allowed state event)] (events : List ε) (state : σ) :
    Decidable (Along step allowed events state) :=
  match events with
  | [] => isTrue trivial
  | event :: events =>
    match found : step state event with
    | none => decidable_of_iff (allowed state event)
        ⟨fun may => ⟨may, fun _ stepped => absurd (found.symm.trans stepped) nofun⟩, And.left⟩
    | some next =>
      have := Along.decidable events next
      decidable_of_iff (allowed state event ∧ Along step allowed events next)
        ⟨fun along => ⟨along.1, fun _ stepped => Option.some.inj (found.symm.trans stepped) ▸ along.2⟩,
          fun along => ⟨along.1, along.2 next found⟩⟩

theorem runSteps_cons : runSteps step (event :: events) state = some after ↔
    ∃ next, step state event = some next ∧ runSteps step events next = some after :=
  Option.bind_eq_some_iff

theorem Along.invariant {kept : σ → Prop} (along : Along step allowed events state) (start : kept state)
    (preserved : ∀ state event next, kept state → allowed state event → step state event = some next → kept next)
    (run : runSteps step events state = some after) : kept after := by
  induction events generalizing state with
  | nil =>
    obtain rfl : state = after := Option.some.inj run
    exact start
  | cons event events ih =>
    obtain ⟨next, stepped, rest⟩ := runSteps_cons.mp run
    exact ih (along.2 next stepped) (preserved state event next start along.1 stepped) rest

theorem Along.kept_iff (kept : σ → Prop) (each : ∀ event ∈ events, ∀ state next, step state event = some next →
      (kept next ↔ kept state ∧ allowed state event))
    (run : runSteps step events state = some after) : kept after ↔ kept state ∧ Along step allowed events state := by
  induction events generalizing state with
  | nil =>
    obtain rfl : state = after := Option.some.inj run
    exact ⟨fun holds => ⟨holds, trivial⟩, And.left⟩
  | cons event events ih =>
    obtain ⟨next, stepped, rest⟩ := runSteps_cons.mp run
    have later := ih (fun other member => each other (List.mem_cons_of_mem event member)) rest
    rw [later, each event List.mem_cons_self state next stepped, and_assoc]
    refine and_congr_right fun _ => and_congr_right fun _ => ⟨fun along other same => ?_, fun along => along next stepped⟩
    obtain rfl := Option.some.inj (stepped.symm.trans same)
    exact along

theorem runSteps_fold (turn : σ → ε → σ) (events : List ε) (state : σ) :
    runSteps (fun state event => some (turn state event)) events state = some (events.foldl turn state) := by
  induction events generalizing state with
  | nil => rfl
  | cons event events ih => exact ih (turn state event)

end Effects
