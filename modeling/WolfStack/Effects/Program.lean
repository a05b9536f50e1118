import Mathlib.Logic.Function.Basic

/-! Programs over typed requests. A request suspends its program until a service
answers it, and the answer selects the continuation. Nothing here says what a
service does; that is the business of the rules a program is judged by. -/

universe u

namespace Effects

inductive Program (Req : Type → Type) (α : Type) : Type 1 where
  | pure : α → Program Req α
  | request {β : Type} : Req β → (β → Program Req α) → Program Req α

inductive Joint (First Second : Type → Type) (β : Type) where
  | first (operation : First β)
  | second (operation : Second β)

namespace Program
variable {Req : Type → Type} {α β γ : Type}

def bind (program : Program Req α) (next : α → Program Req β) : Program Req β :=
  match program with
  | .pure value => next value
  | .request operation rest => .request operation (fun value => (rest value).bind next)

instance : Monad (Program Req) where
  pure := .pure
  bind := .bind

def send (operation : Req α) : Program Req α := .request operation .pure

@[simp] theorem pure_eq (value : α) : (Pure.pure value : Program Req α) = .pure value := rfl

@[simp] theorem bind_eq (program : Program Req α) (next : α → Program Req β) :
    (program >>= next) = program.bind next := rfl

@[simp] theorem pure_bind (value : α) (next : α → Program Req β) :
    (Program.pure value).bind next = next value := rfl

@[simp] theorem request_bind (operation : Req γ) (rest : γ → Program Req α) (next : α → Program Req β) :
    (Program.request operation rest).bind next = .request operation (fun value => (rest value).bind next) := rfl

@[simp] theorem send_bind (operation : Req α) (next : α → Program Req β) :
    (send operation).bind next = .request operation next := rfl

/-- Advance a program by at most so many requests, each answered by a service
that may be told how many it has answered. A refused answer ends the attempt. -/
def exec {σ : Type u} (answer : Nat → {β : Type} → σ → Req β → Option (σ × β)) :
    Nat → Nat → σ → Program Req α → Option (σ × Program Req α)
  | 0, _, state, program => some (state, program)
  | _ + 1, _, state, .pure value => some (state, .pure value)
  | fuel + 1, index, state, .request operation next =>
    match answer index state operation with
    | some (after, value) => exec answer fuel (index + 1) after (next value)
    | none => none

/-- The value of a program whose requests are answered by a fixed service. -/
def evaluate (answer : {β : Type} → Req β → Option β) : Program Req α → Option α
  | .pure value => some value
  | .request operation next => (answer operation).bind fun value => (next value).evaluate answer

@[simp] theorem evaluate_pure (answer : {β : Type} → Req β → Option β) (value : α) :
    (Program.pure value).evaluate answer = some value := rfl

@[simp] theorem evaluate_request (answer : {β : Type} → Req β → Option β) (operation : Req γ)
    (next : γ → Program Req α) : (Program.request operation next).evaluate answer =
      (answer operation).bind fun value => (next value).evaluate answer := rfl

theorem evaluate_bind (answer : {β : Type} → Req β → Option β) (program : Program Req α) (next : α → Program Req β) :
    (program.bind next).evaluate answer = (program.evaluate answer).bind fun value => (next value).evaluate answer := by
  induction program with
  | pure value => rfl
  | request operation rest ih =>
    rw [request_bind, evaluate_request, evaluate_request, Option.bind_assoc]
    simp only [ih]

/-- A program of the first of two services that are there side by side. -/
def first {Second : Type → Type} : Program Req α → Program (Joint Req Second) α
  | .pure value => .pure value
  | .request operation next => .request (.first operation) fun value => (next value).first

def drive {σ : Type u} (answer : {β : Type} → σ → Req β → β × σ) : Program Req α → σ → α × σ
  | .pure value, state => (value, state)
  | .request operation next, state => (next (answer state operation).1).drive answer (answer state operation).2

@[simp] theorem drive_pure {σ : Type u} (answer : {β : Type} → σ → Req β → β × σ) (value : α) (state : σ) :
    (Program.pure value).drive answer state = (value, state) := rfl

@[simp] theorem drive_request {σ : Type u} (answer : {β : Type} → σ → Req β → β × σ) (operation : Req γ)
    (next : γ → Program Req α) (state : σ) : (Program.request operation next).drive answer state =
      (next (answer state operation).1).drive answer (answer state operation).2 := rfl

theorem drive_bind {σ : Type u} (answer : {β : Type} → σ → Req β → β × σ) (program : Program Req α)
    (next : α → Program Req β) (state : σ) : (program.bind next).drive answer state =
      (next (program.drive answer state).1).drive answer (program.drive answer state).2 := by
  induction program generalizing state with
  | pure value => rfl
  | request operation rest ih => exact ih _ _

def finished : Program Req α → Bool
  | .pure _ => true
  | .request _ _ => false

end Program
end Effects
