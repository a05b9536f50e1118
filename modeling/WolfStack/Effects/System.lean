import WolfStack.Effects.Rules
import WolfStack.Effects.Trace
import Mathlib.Data.Set.Basic

/-! Programs of several threads over one shared state. A thread starts a body, is
advanced one request at a time, finishes, or is cut off where the system permits
it. The environment moves the shared state in between. -/

universe u v

namespace Effects
open Relation

structure System (σ : Type u) (Req : Type → Type) (ι : Type v) (α : Type) where
  moves : σ → σ → Prop
  bodies : ι → Set (Program Req α)
  commits : ι → {β : Type} → σ → Req β → β → σ → Prop
  stops : ι → σ → Prop

structure Config (σ : Type u) (Req : Type → Type) (ι : Type v) (α : Type) where
  shared : σ
  threads : ι → Option (Program Req α)

namespace System
variable {σ : Type u} {Req : Type → Type} {ι : Type v} {α : Type} [DecidableEq ι]

inductive Step (system : System σ Req ι α) : Config σ Req ι α → Config σ Req ι α → Prop
  | move {config after} (moved : system.moves config.shared after) :
      Step system config { config with shared := after }
  | start {config thread program} (idle : config.threads thread = none) (body : program ∈ system.bodies thread) :
      Step system config { config with threads := Function.update config.threads thread (some program) }
  | act {config thread} {β : Type} {operation : Req β} {next : β → Program Req α} {value after}
      (running : config.threads thread = some (.request operation next))
      (law : system.commits thread config.shared operation value after) :
      Step system config ⟨after, Function.update config.threads thread (some (next value))⟩
  | finish {config thread value} (running : config.threads thread = some (.pure value)) :
      Step system config { config with threads := Function.update config.threads thread none }
  | stop {config thread program} (running : config.threads thread = some program)
      (cut : system.stops thread config.shared) :
      Step system config { config with threads := Function.update config.threads thread none }

def Reachable (system : System σ Req ι α) (init : σ → Prop) (config : Config σ Req ι α) : Prop :=
  ∃ state, init state ∧ ReflTransGen (Step system) ⟨state, fun _ => none⟩ config

/-- A reachable state of the shared store, whatever its threads are doing. -/
def Reaches (system : System σ Req ι α) (init : σ → Prop) (state : σ) : Prop :=
  ∃ config, system.Reachable init config ∧ config.shared = state

/-- What one thread may rely on: the environment, and what the others promise. -/
def rules (system : System σ Req ι α) (valid : σ → Prop) (promise : ι → σ → σ → Prop) (thread : ι) :
    Rules σ Req where
  valid := valid
  interference before after := system.moves before after ∨ ∃ other, other ≠ thread ∧ promise other before after
  guarantee := promise thread
  commits := system.commits thread

/-- Everything to be shown about a system's parts for its invariant to hold. A
thread's body may count on `idle` and must restore it, also where it is cut off. -/
structure Sound (system : System σ Req ι α) (init valid : σ → Prop) (promise : ι → σ → σ → Prop)
    (idle : ι → σ → Prop) : Prop where
  initial : ∀ state, init state → valid state ∧ ∀ thread, idle thread state
  moves : ∀ before after, valid before → system.moves before after →
    valid after ∧ ∀ thread, idle thread before → idle thread after
  others : ∀ thread other before after, other ≠ thread → valid before → valid after →
    promise other before after → idle thread before → idle thread after
  bodies : ∀ thread, ∀ program ∈ system.bodies thread,
    (system.rules valid promise thread).Triple (idle thread) program (fun _ => idle thread)
  stops : ∀ thread state, valid state → system.stops thread state → idle thread state

private structure Holds (system : System σ Req ι α) (valid : σ → Prop) (promise : ι → σ → σ → Prop)
    (idle : ι → σ → Prop) (config : Config σ Req ι α) : Prop where
  kept : valid config.shared
  resting : ∀ thread, config.threads thread = none → idle thread config.shared
  running : ∀ thread program, config.threads thread = some program →
    (system.rules valid promise thread).Safe (fun _ => idle thread) program config.shared

variable {system : System σ Req ι α} {init valid : σ → Prop} {promise : ι → σ → σ → Prop} {idle : ι → σ → Prop}

omit [DecidableEq ι] in
private theorem Holds.moved (sound : system.Sound init valid promise idle) {config : Config σ Req ι α} {after : σ}
    (holds : Holds system valid promise idle config) (moved : system.moves config.shared after) :
    Holds system valid promise idle { config with shared := after } := by
  obtain ⟨kept, rest⟩ := sound.moves _ _ holds.kept moved
  refine ⟨kept, fun thread idle => rest thread (holds.resting thread idle), ?_⟩
  intro thread program found
  exact Rules.Safe.later _ (holds.running thread program found) (.single ⟨.inl moved, kept⟩)

private theorem Holds.acted (sound : system.Sound init valid promise idle) {config : Config σ Req ι α} {thread : ι}
    {β : Type} {operation : Req β} {next : β → Program Req α} {value : β} {after : σ}
    (holds : Holds system valid promise idle config) (running : config.threads thread = some (.request operation next))
    (law : system.commits thread config.shared operation value after) :
    Holds system valid promise idle ⟨after, Function.update config.threads thread (some (next value))⟩ := by
  obtain ⟨kept, step, rest⟩ := holds.running thread _ running config.shared .refl value after law
  refine ⟨kept, ?_, ?_⟩
  · intro other resting
    by_cases same : other = thread
    · subst other; simp at resting
    · simp only [Function.update_of_ne same] at resting
      exact sound.others other thread _ _ (Ne.symm same) holds.kept kept step (holds.resting other resting)
  · intro other program found
    by_cases same : other = thread
    · subst other
      simp only [Function.update_self, Option.some.injEq] at found
      exact found ▸ rest
    · simp only [Function.update_of_ne same] at found
      exact Rules.Safe.later _ (holds.running other program found)
        (.single ⟨.inr ⟨thread, Ne.symm same, step⟩, kept⟩)

private theorem Holds.parked {config : Config σ Req ι α} {thread : ι}
    (holds : Holds system valid promise idle config) (rest : idle thread config.shared) :
    Holds system valid promise idle { config with threads := Function.update config.threads thread none } := by
  refine ⟨holds.kept, ?_, ?_⟩
  · intro other resting
    by_cases same : other = thread
    · exact same ▸ rest
    · exact holds.resting other (by simpa [Function.update_of_ne same] using resting)
  · intro other program found
    by_cases same : other = thread
    · subst other; simp at found
    · exact holds.running other program (by simpa [Function.update_of_ne same] using found)

private theorem Holds.step (sound : system.Sound init valid promise idle) {before after : Config σ Req ι α}
    (holds : Holds system valid promise idle before) (step : system.Step before after) :
    Holds system valid promise idle after := by
  cases step with
  | move moved => exact holds.moved sound moved
  | @start thread program resting body =>
    have safe := sound.bodies thread program body _ holds.kept (holds.resting thread resting)
    refine ⟨holds.kept, ?_, ?_⟩
    · intro other idle
      by_cases same : other = thread
      · subst other; simp at idle
      · exact holds.resting other (by simpa [Function.update_of_ne same] using idle)
    · intro other found present
      by_cases same : other = thread
      · subst other
        simp only [Function.update_self, Option.some.injEq] at present
        exact present ▸ safe
      · exact holds.running other found (by simpa [Function.update_of_ne same] using present)
  | act running law => exact holds.acted sound running law
  | finish running => exact holds.parked (holds.running _ _ running _ .refl)
  | stop running cut => exact holds.parked (sound.stops _ _ holds.kept cut)

theorem Sound.reachable (sound : system.Sound init valid promise idle) {config : Config σ Req ι α}
    (reached : system.Reachable init config) :
    valid config.shared ∧ ∀ thread, config.threads thread = none → idle thread config.shared := by
  obtain ⟨state, start, run⟩ := reached
  have initial : Holds system valid promise idle ⟨state, fun _ => none⟩ :=
    ⟨(sound.initial state start).1, fun thread _ => (sound.initial state start).2 thread,
      fun _ _ impossible => by cases impossible⟩
  have holds : Holds system valid promise idle config := by
    induction run with
    | refl => exact initial
    | tail _ step ih => exact ih.step sound step
  exact ⟨holds.kept, holds.resting⟩

theorem Sound.reaches (sound : system.Sound init valid promise idle) {state : σ}
    (reached : system.Reaches init state) : valid state := by
  obtain ⟨config, run, rfl⟩ := reached
  exact (sound.reachable run).1

theorem Reaches.image {τ : Type u} (plain : System τ Req ι α) (forget : σ → τ) {state : σ} (reached : system.Reaches init state)
    (moves : ∀ before after, system.moves before after → plain.moves (forget before) (forget after))
    (bodies : ∀ thread, ∀ program ∈ system.bodies thread, program ∈ plain.bodies thread)
    (commits : ∀ thread {β : Type} before (operation : Req β) value after, system.commits thread before operation value after →
      plain.commits thread (forget before) operation value (forget after))
    (stops : ∀ thread state, system.stops thread state → plain.stops thread (forget state)) :
    plain.Reaches (fun plainly => ∃ start, init start ∧ forget start = plainly) (forget state) := by
  obtain ⟨config, ⟨start, begun, run⟩, rfl⟩ := reached
  refine ⟨⟨forget config.shared, config.threads⟩, ⟨forget start, ⟨start, begun, rfl⟩, ?_⟩, rfl⟩
  induction run with
  | refl => exact .refl
  | tail _ step ih =>
    apply ih.tail
    cases step with
    | move moved => exact .move (moves _ _ moved)
    | start resting body => exact .start resting (bodies _ _ body)
    | act running law => exact .act running (commits _ _ _ _ _ law)
    | finish running => exact .finish running
    | stop running cut => exact .stop running (stops _ _ cut)

/-- The system where something is already known of every state it is in. -/
def confined (system : System σ Req ι α) (known : σ → Prop) : System σ Req ι α where
  moves before after := system.moves before after ∧ known before ∧ known after
  bodies := system.bodies
  commits thread _ before operation value after := system.commits thread before operation value after ∧ known before ∧ known after
  stops := system.stops

theorem Reaches.confined {known : σ → Prop} (knows : ∀ state, system.Reaches init state → known state) {state : σ}
    (reached : system.Reaches init state) : (system.confined known).Reaches init state := by
  obtain ⟨config, ⟨start, begun, run⟩, rfl⟩ := reached
  have knows_ : ∀ config, ReflTransGen (Step system) ⟨start, fun _ => none⟩ config → known config.shared :=
    fun config run => knows _ ⟨config, ⟨start, begun, run⟩, rfl⟩
  refine ⟨config, ⟨start, begun, ?_⟩, rfl⟩
  induction run with
  | refl => exact .refl
  | @tail before after prior step ih =>
    have first := knows_ before prior
    have last := knows_ after (prior.tail step)
    apply ih.tail
    cases step with
    | move moved => exact .move ⟨moved, first, last⟩
    | start resting body => exact .start resting body
    | act running law => exact .act running ⟨law, first, last⟩
    | finish running => exact .finish running
    | stop running cut => exact .stop running cut

theorem exec_runs {thread : ι} {answer : Nat → {β : Type} → σ → Req β → Option (σ × β)}
    (lawful : ∀ index {β : Type} (state : σ) (operation : Req β) after value,
      answer index state operation = some (after, value) → system.commits thread state operation value after)
    {fuel index : Nat} {state : σ} {threads : ι → Option (Program Req α)} {program rest : Program Req α} {after : σ}
    (running : threads thread = some program)
    (driven : Program.exec answer fuel index state program = some (after, rest)) :
    ReflTransGen (Step system) ⟨state, threads⟩ ⟨after, Function.update threads thread (some rest)⟩ := by
  induction fuel generalizing index state threads program with
  | zero =>
    simp only [Program.exec, Option.some.injEq, Prod.mk.injEq] at driven
    obtain ⟨rfl, rfl⟩ := driven
    rw [← running, Function.update_eq_self]
  | succ fuel ih =>
    cases program with
    | pure value =>
      simp only [Program.exec, Option.some.injEq, Prod.mk.injEq] at driven
      obtain ⟨rfl, rfl⟩ := driven
      rw [← running, Function.update_eq_self]
    | request operation next =>
      simp only [Program.exec] at driven
      split at driven
      · rename_i middle value answered
        have moved : Step system ⟨state, threads⟩ ⟨middle, Function.update threads thread (some (next value))⟩ :=
          .act running (lawful index state operation middle value answered)
        have remaining := ih (Function.update_self thread (some (next value)) threads) driven
        rw [Function.update_idem] at remaining
        exact .head moved remaining
      · cases driven

end System
end Effects
