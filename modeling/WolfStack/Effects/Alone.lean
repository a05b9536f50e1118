import WolfStack.Effects.Program

/-! Programs that run alone. What has to hold of a state for a program to make every
request where it may, and to end as it should, whatever it is answered. -/

universe u

namespace Effects
namespace Program
variable {σ : Type u} {Req : Type → Type} {α β : Type}

def Alone (commits : {β : Type} → σ → Req β → β → σ → Prop) (kind : {β : Type} → σ → Req β → Prop) (post : α → σ → Prop) :
    Program Req α → σ → Prop
  | .pure value, state => post value state
  | .request operation next, state => kind state operation ∧
    ∀ value after, commits state operation value after → Alone commits kind post (next value) after

variable {commits : {β : Type} → σ → Req β → β → σ → Prop} {kind : {β : Type} → σ → Req β → Prop} {post : α → σ → Prop}
  {program : Program Req α} {state : σ}

theorem alone_bind {next : α → Program Req β} {last : β → σ → Prop} :
    (program.bind next).Alone commits kind last state ↔
      program.Alone commits kind (fun value => (next value).Alone commits kind last) state := by
  induction program generalizing state with
  | pure value => exact .rfl
  | request operation continue_ ih =>
    simp only [request_bind, Alone]
    exact and_congr_right fun _ => forall_congr' fun value => forall_congr' fun after => imp_congr_right fun _ => ih value

theorem Alone.and {other : α → σ → Prop} (left : program.Alone commits kind post state)
    (right : program.Alone commits kind other state) :
    program.Alone commits kind (fun value after => post value after ∧ other value after) state := by
  induction program generalizing state with
  | pure value => exact ⟨left, right⟩
  | request operation next ih =>
    refine ⟨left.1, fun value after law => ?_⟩
    exact ih value (left.2 value after law) (right.2 value after law)

theorem Alone.weaken {weaker : α → σ → Prop} (alone : program.Alone commits kind post state)
    (implies : ∀ value after, post value after → weaker value after) : program.Alone commits kind weaker state := by
  induction program generalizing state with
  | pure value => exact implies value state alone
  | request operation next ih => exact ⟨alone.1, fun value after law => ih value (alone.2 value after law)⟩

theorem Alone.ends (answers : ∀ state {β : Type} (operation : Req β), ∃ value after, commits state operation value after)
    (alone : program.Alone commits kind post state) : ∃ value after, post value after := by
  induction program generalizing state with
  | pure value => exact ⟨value, state, alone⟩
  | request operation next ih =>
    obtain ⟨value, after, law⟩ := answers state operation
    exact ih value (alone.2 value after law)

theorem Alone.exec {answer : Nat → {β : Type} → σ → Req β → Option (σ × β)}
    (lawful : ∀ index {β : Type} (state : σ) (operation : Req β) after value,
      answer index state operation = some (after, value) → commits state operation value after)
    (alone : program.Alone commits kind post state) {fuel index : Nat} {check : σ → Bool}
    (driven : (program.exec answer fuel index state).any (fun done => done.2.finished && check done.1) = true) :
    ∃ value after, check after = true ∧ post value after := by
  have ended : ∀ {state : σ} {program : Program Req α}, program.Alone commits kind post state →
      (program.finished && check state) = true → ∃ value after, check after = true ∧ post value after := by
    intro state program alone done
    rw [Bool.and_eq_true] at done
    cases program with
    | pure value => exact ⟨value, state, done.2, alone⟩
    | request operation next => cases done.1
  induction fuel generalizing index state program with
  | zero => exact ended alone driven
  | succ fuel ih =>
    cases program with
    | pure value => exact ended alone driven
    | request operation next =>
      simp only [Program.exec] at driven
      split at driven
      · rename_i answered
        exact ih (alone.2 _ _ (lawful index state operation _ _ answered)) driven
      · cases driven

end Program
end Effects
