import WolfStack.Effects.System

/-! Runs written out as schedules: which thread does what, for how long, and what
the environment does in between. A schedule that can be played is a run. -/

universe u v

namespace Effects
open Relation

inductive Turn (σ : Type u) (Req : Type → Type) (ι : Type v) (α : Type) where
  | start (thread : ι) (program : Program Req α)
  | advance (thread : ι) (requests : Nat)
  | finish (thread : ι)
  | stop (thread : ι) (permitted : σ → Bool)
  | move (change : σ → Option σ)

namespace Turn
variable {σ : Type u} {Req : Type → Type} {ι : Type v} {α : Type} [DecidableEq ι]

def length : Turn σ Req ι α → Nat
  | .advance _ requests => requests
  | _ => 0

def play (answer : ι → Nat → {β : Type} → σ → Req β → Option (σ × β)) (index : Nat) (config : Config σ Req ι α) :
    Turn σ Req ι α → Option (Config σ Req ι α)
  | .start thread program =>
    match config.threads thread with
    | none => some { config with threads := Function.update config.threads thread (some program) }
    | some _ => none
  | .advance thread requests =>
    match config.threads thread with
    | none => none
    | some program =>
      (program.exec (answer thread) requests index config.shared).map fun done =>
        ⟨done.1, Function.update config.threads thread (some done.2)⟩
  | .finish thread =>
    match config.threads thread with
    | some (.pure _) => some { config with threads := Function.update config.threads thread none }
    | _ => none
  | .stop thread permitted =>
    match config.threads thread with
    | none => none
    | some _ =>
      if permitted config.shared then some { config with threads := Function.update config.threads thread none } else none
  | .move change => (change config.shared).map fun after => { config with shared := after }

/-- A thread starts what it may, stops where it may, and the environment moves as it may. -/
def Lawful (system : System σ Req ι α) : Turn σ Req ι α → Prop
  | .start thread program => program ∈ system.bodies thread
  | .stop thread permitted => ∀ state, permitted state = true → system.stops thread state
  | .move change => ∀ before after, change before = some after → system.moves before after
  | _ => True

variable {system : System σ Req ι α} {answer : ι → Nat → {β : Type} → σ → Req β → Option (σ × β)}

theorem play_runs
    (lawful : ∀ thread index {β : Type} (state : σ) (operation : Req β) after value,
      answer thread index state operation = some (after, value) → system.commits thread state operation value after)
    {turn : Turn σ Req ι α} (allowed : turn.Lawful system) {index : Nat} {config after : Config σ Req ι α}
    (played : turn.play answer index config = some after) : ReflTransGen (System.Step system) config after := by
  cases turn with
  | start thread program =>
    simp only [play] at played
    split at played
    · rename_i idle
      cases played
      exact .single (.start idle allowed)
    · cases played
  | advance thread requests =>
    simp only [play] at played
    split at played
    · cases played
    · rename_i program running
      obtain ⟨⟨reached, rest⟩, driven, rfl⟩ := Option.map_eq_some_iff.mp played
      exact System.exec_runs (lawful thread) running driven
  | finish thread =>
    simp only [play] at played
    split at played
    · rename_i value running
      cases played
      exact .single (.finish running)
    · cases played
  | stop thread permitted =>
    simp only [play] at played
    split at played
    · cases played
    · rename_i program running
      split at played
      · rename_i cut
        cases played
        exact .single (.stop running (allowed _ cut))
      · cases played
  | move change =>
    obtain ⟨reached, moved, rfl⟩ := Option.map_eq_some_iff.mp played
    exact .single (.move (allowed _ _ moved))

end Turn

variable {σ : Type u} {Req : Type → Type} {ι : Type v} {α : Type} [DecidableEq ι]

def Turn.whole (thread : ι) (program : Program Req α) (requests : Nat) : List (Turn σ Req ι α) :=
  [.start thread program, .advance thread requests, .finish thread]

def conduct (answer : ι → Nat → {β : Type} → σ → Req β → Option (σ × β)) :
    Nat → List (Turn σ Req ι α) → Config σ Req ι α → Option (Config σ Req ι α)
  | _, [], config => some config
  | index, turn :: turns, config =>
    (turn.play answer index config).bind (conduct answer (index + turn.length) turns)

variable {system : System σ Req ι α} {answer : ι → Nat → {β : Type} → σ → Req β → Option (σ × β)}

theorem conduct_runs
    (lawful : ∀ thread index {β : Type} (state : σ) (operation : Req β) after value,
      answer thread index state operation = some (after, value) → system.commits thread state operation value after)
    {turns : List (Turn σ Req ι α)} (allowed : ∀ turn ∈ turns, turn.Lawful system) {index : Nat}
    {config after : Config σ Req ι α} (conducted : conduct answer index turns config = some after) :
    ReflTransGen (System.Step system) config after := by
  induction turns generalizing index config with
  | nil => cases conducted; exact .refl
  | cons turn turns ih =>
    obtain ⟨middle, played, rest⟩ := Option.bind_eq_some_iff.mp conducted
    have first := turn.play_runs lawful (allowed turn List.mem_cons_self) played
    exact first.trans (ih (fun other member => allowed other (List.mem_cons_of_mem _ member)) rest)

theorem conduct_reaches (init : σ → Prop) {state : σ} (start : init state)
    (lawful : ∀ thread index {β : Type} (state : σ) (operation : Req β) after value,
      answer thread index state operation = some (after, value) → system.commits thread state operation value after)
    {turns : List (Turn σ Req ι α)} (allowed : ∀ turn ∈ turns, turn.Lawful system) {check : σ → Bool}
    (conducted : (conduct answer 0 turns ⟨state, fun _ => none⟩).any (fun config => check config.shared) = true) :
    ∃ reached, system.Reaches init reached ∧ check reached = true := by
  obtain ⟨config, played, passed⟩ := (Option.any_eq_true _ _).mp conducted
  exact ⟨config.shared, ⟨config, ⟨state, start, conduct_runs lawful allowed played⟩, rfl⟩, passed⟩

end Effects
