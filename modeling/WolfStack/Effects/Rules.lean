import WolfStack.Effects.Trace
import Mathlib.Logic.Relation

/-! Proof rules for programs that run among other activity. Before every request
the shared state may be moved by interference; the request itself is answered in
one step. An assertion is therefore only of use where interference keeps it. -/

universe u

namespace Effects

structure Rules (σ : Type u) (Req : Type → Type) where
  valid : σ → Prop
  interference : σ → σ → Prop
  guarantee : σ → σ → Prop
  commits : {β : Type} → σ → Req β → β → σ → Prop

namespace Rules
variable {σ : Type u} {Req : Type → Type} {α β : Type} (rules : Rules σ Req)

def Later : σ → σ → Prop :=
  Relation.ReflTransGen (fun before after => rules.interference before after ∧ rules.valid after)

def Stable (assertion : σ → Prop) : Prop :=
  ∀ before after, rules.valid before → rules.valid after →
    rules.interference before after → assertion before → assertion after

theorem Later.valid {before after : σ} (later : rules.Later before after) (kept : rules.valid before) :
    rules.valid after := by
  induction later with
  | refl => exact kept
  | tail _ moved _ => exact moved.2

theorem Stable.later {assertion : σ → Prop} (stable : rules.Stable assertion) {before after : σ}
    (later : rules.Later before after) (kept : rules.valid before) (holds : assertion before) :
    assertion after := by
  induction later with
  | refl => exact holds
  | tail rest moved ih => exact stable _ _ (Later.valid rules rest kept) moved.2 moved.1 ih

/-- The rest of a program keeps the invariant and its guarantee at every request,
whatever the interference, and ends where the postcondition holds. -/
def Safe (post : α → σ → Prop) : Program Req α → σ → Prop
  | .pure value, state => ∀ current, rules.Later state current → post value current
  | .request operation next, state =>
    ∀ current, rules.Later state current → ∀ value after, rules.commits current operation value after →
      rules.valid after ∧ rules.guarantee current after ∧ Safe post (next value) after

theorem Safe.later {post : α → σ → Prop} {program : Program Req α} {before after : σ}
    (safe : rules.Safe post program before) (later : rules.Later before after) :
    rules.Safe post program after := by
  cases program with
  | pure value => exact fun current further => safe current (later.trans further)
  | request operation next => exact fun current further => safe current (later.trans further)

theorem Safe.weaken {post weaker : α → σ → Prop} {program : Program Req α} {state : σ}
    (safe : rules.Safe post program state) (kept : rules.valid state)
    (implies : ∀ value current, rules.valid current → post value current → weaker value current) :
    rules.Safe weaker program state := by
  induction program generalizing state with
  | pure value => exact fun current later => implies value current (Later.valid rules later kept) (safe current later)
  | request operation next ih =>
    intro current later value after law
    obtain ⟨last, step, rest⟩ := safe current later value after law
    exact ⟨last, step, ih value rest last⟩

theorem Safe.bind {middle : α → σ → Prop} {post : β → σ → Prop} {program : Program Req α}
    {next : α → Program Req β} {state : σ} (safe : rules.Safe middle program state) (kept : rules.valid state)
    (rest : ∀ value current, rules.valid current → middle value current → rules.Safe post (next value) current) :
    rules.Safe post (program.bind next) state := by
  induction program generalizing state with
  | pure value => exact rest value state kept (safe state .refl)
  | request operation continuation ih =>
    intro current later value after law
    obtain ⟨last, step, remaining⟩ := safe current later value after law
    exact ⟨last, step, ih value remaining last⟩

def first {Second : Type → Type} (rules : Rules σ (Joint Req Second)) : Rules σ Req where
  valid := rules.valid
  interference := rules.interference
  guarantee := rules.guarantee
  commits before operation := rules.commits before (.first operation)

theorem Safe.first {Second : Type → Type} {rules : Rules σ (Joint Req Second)} {post : α → σ → Prop}
    {program : Program Req α} {state : σ} (safe : rules.first.Safe post program state) :
    rules.Safe post (program.first : Program (Joint Req Second) α) state := by
  induction program generalizing state with
  | pure value => exact safe
  | request operation next ih =>
    intro current later value after law
    obtain ⟨last, step, rest⟩ := safe current later value after law
    exact ⟨last, step, ih value rest⟩

/-- From any valid state satisfying the precondition the program is safe. -/
def Triple (pre : σ → Prop) (program : Program Req α) (post : α → σ → Prop) : Prop :=
  ∀ state, rules.valid state → pre state → rules.Safe post program state

namespace Triple
variable {rules} {pre : σ → Prop} {post : α → σ → Prop}

theorem pure (value : α) (stable : rules.Stable pre) (holds : ∀ state, rules.valid state → pre state → post value state) :
    rules.Triple pre (.pure value) post :=
  fun _ kept first _ later => holds _ (Later.valid rules later kept) (Stable.later rules stable later kept first)

theorem weaken {required : σ → Prop} {program : Program Req α} (triple : rules.Triple required program post)
    (implies : ∀ state, rules.valid state → pre state → required state) : rules.Triple pre program post :=
  fun state kept holds => triple state kept (implies state kept holds)

theorem weaken_post {stronger : α → σ → Prop} {program : Program Req α} (triple : rules.Triple pre program stronger)
    (implies : ∀ value state, rules.valid state → stronger value state → post value state) :
    rules.Triple pre program post :=
  fun state kept holds => Safe.weaken rules (triple state kept holds) kept implies

theorem bind {middle : β → σ → Prop} {program : Program Req β} {next : β → Program Req α}
    (first : rules.Triple pre program middle) (rest : ∀ value, rules.Triple (middle value) (next value) post) :
    rules.Triple pre (program.bind next) post :=
  fun state kept holds => Safe.bind rules (first state kept holds) kept rest

theorem via (middle : β → σ → Prop) {program : Program Req β} {next : β → Program Req α}
    (first : rules.Triple pre program middle) (rest : ∀ value, rules.Triple (middle value) (next value) post) :
    rules.Triple pre (program.bind next) post :=
  bind first rest

theorem given (required : σ → Prop) {program : Program Req α} (triple : rules.Triple required program post)
    (implies : ∀ state, rules.valid state → pre state → required state) : rules.Triple pre program post :=
  weaken triple implies

theorem request {middle : β → σ → Prop} {operation : Req β} {next : β → Program Req α}
    (stable : rules.Stable pre)
    (execute : ∀ before value after, rules.valid before → pre before → rules.commits before operation value after →
      rules.valid after ∧ rules.guarantee before after ∧ middle value after)
    (rest : ∀ value, rules.Triple (middle value) (next value) post) :
    rules.Triple pre (.request operation next) post := by
  intro state kept holds current later value after law
  have now := Later.valid rules later kept
  obtain ⟨last, step, result⟩ := execute current value after now (Stable.later rules stable later kept holds) law
  exact ⟨last, step, rest value after last result⟩

theorem leading (middle : β → σ → Prop) {operation : Req β} {next : β → Program Req α} (stable : rules.Stable pre)
    (execute : ∀ before value after, rules.valid before → pre before → rules.commits before operation value after →
      rules.valid after ∧ rules.guarantee before after ∧ middle value after)
    (rest : ∀ value, rules.Triple (middle value) (next value) post) :
    rules.Triple pre (.request operation next) post :=
  request stable execute rest

theorem send {result : β → σ → Prop} {operation : Req β} (stable : rules.Stable pre)
    (settled : ∀ value, rules.Stable (result value))
    (execute : ∀ before value after, rules.valid before → pre before → rules.commits before operation value after →
      rules.valid after ∧ rules.guarantee before after ∧ result value after) :
    rules.Triple pre (Program.send operation) result :=
  request stable execute fun value => pure value (settled value) fun _ _ holds => holds

theorem yields {kind : {β : Type} → Req β → Prop} {result : α → Prop} {program : Program Req α}
    (yields : program.Yields kind result) (stable : rules.Stable pre)
    (execute : ∀ before {β : Type} (operation : Req β) value after, rules.valid before → pre before → kind operation →
      rules.commits before operation value after → rules.valid after ∧ rules.guarantee before after ∧ pre after) :
    rules.Triple pre program fun value state => result value ∧ pre state := by
  induction program with
  | pure value => exact pure value stable fun _ _ holds => ⟨yields, holds⟩
  | request operation next ih =>
    obtain ⟨here, later⟩ := yields
    refine request stable ?_ fun value => ih value (later value)
    intro before value after valid holds law
    exact execute before operation value after valid holds here law

theorem framed {kind : {β : Type} → Req β → Prop} {result : α → Prop} {frame : σ → Prop} {program : Program Req α}
    (triple : rules.Triple pre program post) (yields : program.Yields kind result) (stable : rules.Stable frame)
    (execute : ∀ before {β : Type} (operation : Req β) value after, rules.valid before → frame before → kind operation →
      rules.commits before operation value after → frame after) :
    rules.Triple (fun state => pre state ∧ frame state) program fun value state => post value state ∧ frame state := by
  rintro state kept ⟨holds, framed⟩
  have safe := triple state kept holds
  clear triple holds
  induction program generalizing state with
  | pure value => exact fun current later => ⟨safe current later, Stable.later rules stable later kept framed⟩
  | request operation next ih =>
    obtain ⟨here, rest⟩ := yields
    intro current later value after law
    obtain ⟨last, step, remaining⟩ := safe current later value after law
    have still := Stable.later rules stable later kept framed
    have kept_ := execute current operation value after (Later.valid rules later kept) still here law
    exact ⟨last, step, ih value (rest value) after last kept_ remaining⟩

theorem first {Second : Type → Type} {rules : Rules σ (Joint Req Second)} {program : Program Req α}
    (triple : rules.first.Triple pre program post) : rules.Triple pre (program.first : Program (Joint Req Second) α) post :=
  fun state kept holds => (triple state kept holds).first

end Triple
end Rules
end Effects
