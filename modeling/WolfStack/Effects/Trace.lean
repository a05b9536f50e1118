import WolfStack.Effects.Program

/-! Runs of a program, with what it asked and what it was told. -/

namespace Effects

structure Exchange (Req : Type → Type) where
  {β : Type}
  request : Req β
  answer : β

namespace Program
variable {Req : Type → Type} {α β : Type}

inductive Follows : Program Req α → List (Exchange Req) → Program Req α → Prop
  | nil {program} : Follows program [] program
  | cons {β : Type} {operation : Req β} {next : β → Program Req α} {answer : β} {trace rest}
      (follows : Follows (next answer) trace rest) :
      Follows (.request operation next) (⟨operation, answer⟩ :: trace) rest

theorem Follows.trans {program middle rest : Program Req α} {first second : List (Exchange Req)}
    (before : Follows program first middle) (after : Follows middle second rest) :
    Follows program (first ++ second) rest := by
  induction before with
  | nil => exact after
  | cons _ ih => exact .cons (ih after)

def Only (kind : {β : Type} → Req β → Prop) : Program Req α → Prop
  | .pure _ => True
  | .request operation next => kind operation ∧ ∀ value, Only kind (next value)

theorem Only.bind {kind : {β : Type} → Req β → Prop} {program : Program Req α} {next : α → Program Req β}
    (only : program.Only kind) (rest : ∀ value, (next value).Only kind) : (program.bind next).Only kind := by
  induction program with
  | pure value => exact rest value
  | request operation continue_ ih =>
    obtain ⟨here, later⟩ := only
    exact ⟨here, fun value => ih value (later value)⟩

def Yields (kind : {β : Type} → Req β → Prop) (post : α → Prop) : Program Req α → Prop
  | .pure value => post value
  | .request operation next => kind operation ∧ ∀ value, Yields kind post (next value)

namespace Yields
variable {kind : {β : Type} → Req β → Prop} {middle : α → Prop} {post : β → Prop} {program : Program Req α}

theorem bind {next : α → Program Req β} (first : program.Yields kind middle)
    (rest : ∀ value, middle value → (next value).Yields kind post) : (program.bind next).Yields kind post := by
  induction program with
  | pure value => exact rest value first
  | request operation continue_ ih =>
    obtain ⟨here, later⟩ := first
    exact ⟨here, fun value => ih value (later value)⟩

theorem mono {wider : {β : Type} → Req β → Prop} (yields : program.Yields kind middle)
    (implies : ∀ {β : Type} (operation : Req β), kind operation → wider operation) : program.Yields wider middle := by
  induction program with
  | pure value => exact yields
  | request operation continue_ ih =>
    obtain ⟨here, later⟩ := yields
    exact ⟨implies operation here, fun value => ih value (later value)⟩

theorem first {Second : Type → Type} {kind : {β : Type} → Joint Req Second β → Prop}
    (yields : program.Yields (fun operation => kind (.first operation)) middle) :
    (program.first : Program (Joint Req Second) α).Yields kind middle := by
  induction program with
  | pure value => exact yields
  | request operation continue_ ih =>
    obtain ⟨here, later⟩ := yields
    exact ⟨here, fun value => ih value (later value)⟩

end Yields
end Program
end Effects
