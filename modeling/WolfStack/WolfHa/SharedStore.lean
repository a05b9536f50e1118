import WolfStack.Effects.Trace
import WolfStack.WolfHa.Requests
import Mathlib.Data.List.Forall2

/-! Programs that share one store file. Each load and each save is one step on the
file; everything else that a program asks for is answered from outside. -/

namespace WolfHa
open Effects
open Effects.Program (Follows Only)

abbrev Exchanged := Exchange Request

namespace Request

def isStore {β : Type} : Request β → Bool
  | .load => true
  | .save _ => true
  | _ => false

def Outside {β : Type} (operation : Request β) : Prop := operation.isStore = false

/-- The store after an answer, if the answer can be given. A save that fails leaves the
file as it was. -/
def stored (store : HaStore) : {β : Type} → Request β → β → Option HaStore
  | _, .load, answer => if answer = store then some store else none
  | _, .save next, .ok () => some next
  | _, .save _, .error _ => some store
  | _, _, _ => some store

theorem stored_outside (store : HaStore) {β : Type} {operation : Request β} (outside : operation.Outside) (answer : β) :
    operation.stored store answer = some store := by
  cases operation <;> first | rfl | cases outside

end Request

/-- The exchanges of several rounds in the order in which they take place. -/
def replay : HaStore → List Exchanged → Option HaStore
  | store, [] => some store
  | store, exchange :: rest => (exchange.request.stored store exchange.answer).bind fun after => replay after rest

def wrote : {β : Type} → Request β → β → Bool
  | _, .save _, .ok () => true
  | _, _, _ => false

def read : {β : Type} → Request β → β → Bool
  | _, .load, _ => true
  | _, _, _ => false

section

variable {ι : Type} [DecidableEq ι]

def share (i : ι) (schedule : List (ι × Exchanged)) : List Exchanged :=
  schedule.filterMap fun (j, exchange) => if j = i then some exchange else none

/-- Which rounds still know the file as it is, after a step of one of them. -/
def informed (fresh : ι → Bool) (i : ι) (exchange : Exchanged) : ι → Bool :=
  if read exchange.request exchange.answer then Function.update fresh i true
  else if wrote exchange.request exchange.answer then fun j => if j = i then fresh i else false
  else fresh

/-- No save of one round comes between a save of another and the load before it. -/
def Uncrossed : (ι → Bool) → List (ι × Exchanged) → Prop
  | _, [] => True
  | fresh, (i, exchange) :: rest =>
    (wrote exchange.request exchange.answer = true → fresh i = true) ∧ Uncrossed (informed fresh i exchange) rest

end

inductive Alike (container : String) : Exchanged → Exchanged → Prop
  | load {store store' : HaStore} (same : store.get container = store'.get container) :
      Alike container ⟨.load, store⟩ ⟨.load, store'⟩
  | save {store store' : HaStore} {answer : Except String Unit} (same : store.get container = store'.get container) :
      Alike container ⟨.save store, answer⟩ ⟨.save store', answer⟩
  | outside {β : Type} {operation : Request β} {answer : β} (outside : operation.Outside) :
      Alike container ⟨operation, answer⟩ ⟨operation, answer⟩

/-- Two programs that read and change one entry only, and do the same as long as that
entry is the same: a save differs from what was last loaded in that entry alone. -/
inductive Confined (container : String) {α : Type} : Option HaStore → Prog α → Prog α → Prop
  | pure {known value} : Confined container known (.pure value) (.pure value)
  | load {known} {next next' : HaStore → Prog α}
      (rest : ∀ store store', store.get container = store'.get container →
        Confined container (some store) (next store) (next' store')) :
      Confined container known (.request .load next) (.request .load next')
  | save {loaded store store'} {next next' : Except String Unit → Prog α}
      (same : store.get container = store'.get container)
      (others : ∀ other, other ≠ container → store.get other = loaded.get other)
      (rest : ∀ answer, Confined container (some loaded) (next answer) (next' answer)) :
      Confined container (some loaded) (.request (.save store) next) (.request (.save store') next')
  | outside {known} {β : Type} {operation : Request β} {next next' : β → Prog α} (outside : operation.Outside)
      (rest : ∀ answer, Confined container known (next answer) (next' answer)) :
      Confined container known (.request operation next) (.request operation next')

namespace Confined

variable {container : String} {α β : Type} {known : Option HaStore}

theorem bind {program program' : Prog α} {next next' : α → Prog β} (confined : Confined container known program program')
    (rest : ∀ known value, Confined container known (next value) (next' value)) :
    Confined container known (program.bind next) (program'.bind next') := by
  induction confined with
  | pure => exact rest _ _
  | load _ ih => exact .load ih
  | save same others _ ih => exact .save same others ih
  | outside outside _ ih => exact .outside outside ih

theorem bind_only {program : Prog α} {next next' : α → Prog β} (only : program.Only Request.Outside)
    (rest : ∀ value, Confined container known (next value) (next' value)) :
    Confined container known (program.bind next) (program.bind next') := by
  induction program with
  | pure value => exact rest value
  | request operation continue_ ih => exact .outside only.1 fun answer => ih answer (only.2 answer)

theorem of_pure {value : α} {program' : Prog α} (confined : Confined container known (.pure value) program') :
    program' = .pure value := by
  cases confined
  rfl

theorem of_only {program : Prog α} (only : program.Only Request.Outside) : Confined container known program program := by
  induction program with
  | pure value => exact .pure
  | request operation continue_ ih => exact .outside only.1 fun answer => ih answer (only.2 answer)

end Confined

/-- One round among others: the program it is at, what it would be at by itself, and what
it may count on of the file. -/
structure Apart (container : String) {α : Type} (store : HaStore) (fresh : Bool) (program program' : Prog α)
    (alone : HaStore) : Prop where
  confined : ∃ known, Confined container known program program' ∧
    (fresh = true → ∃ loaded, known = some loaded ∧ ∀ other, other ≠ container → store.get other = loaded.get other)
  same : store.get container = alone.get container

section

variable {ι α : Type} [DecidableEq ι] {container : String} {store after alone : HaStore} {fresh : ι → Bool} {i : ι}
  {program' : Prog α}

theorem Apart.step {β : Type} {operation : Request β} {next : β → Prog α} {answer : β}
    (apart : Apart container store (fresh i) (.request operation next) program' alone)
    (served : operation.stored store answer = some after) (kept : wrote operation answer = true → fresh i = true) :
    ∃ (exchange' : Exchanged) (rest' : Prog α) (alone' : HaStore), Follows program' [exchange'] rest' ∧
      Alike container ⟨operation, answer⟩ exchange' ∧ exchange'.request.stored alone exchange'.answer = some alone' ∧
      Apart container after (informed fresh i ⟨operation, answer⟩ i) (next answer) rest' alone' ∧
      (wrote operation answer = true → ∀ other, other ≠ container → after.get other = store.get other) := by
  obtain ⟨⟨known, confined, current⟩, same⟩ := apart
  cases confined with
  | load rest =>
    obtain ⟨rfl, rfl⟩ : answer = store ∧ store = after := by
      simpa [Request.stored] using served
    refine ⟨⟨.load, alone⟩, _, alone, .cons .nil, .load same, by simp [Request.stored], ⟨⟨_, rest _ _ same, ?_⟩, same⟩, nofun⟩
    exact fun _ => ⟨answer, rfl, fun _ _ => rfl⟩
  | @save loaded next_ next' _ _ agrees others rest =>
    cases answer with
    | ok value =>
      cases served
      obtain ⟨_, loads, unchanged⟩ := current (kept rfl)
      obtain rfl := Option.some.inj loads
      refine ⟨⟨.save _, .ok value⟩, _, _, .cons .nil, .save agrees, rfl, ⟨⟨_, rest _, fun _ => ⟨_, rfl, others⟩⟩, agrees⟩, ?_⟩
      exact fun _ other apart => (others other apart).trans (unchanged other apart).symm
    | error e =>
      cases served
      exact ⟨⟨.save _, .error e⟩, _, _, .cons .nil, .save agrees, rfl, ⟨⟨_, rest _, current⟩, same⟩, nofun⟩
  | outside outside rest =>
    obtain rfl : store = after := Option.some.inj ((Request.stored_outside store outside answer).symm.trans served)
    have silent : informed fresh i ⟨operation, answer⟩ = fresh ∧ wrote operation answer = false := by
      cases operation <;> first | exact ⟨rfl, rfl⟩ | cases outside
    refine ⟨⟨operation, answer⟩, _, alone, .cons .nil, .outside outside, Request.stored_outside alone outside answer,
      ⟨⟨known, rest answer, ?_⟩, same⟩, ?_⟩
    · rwa [silent.1]
    · rw [silent.2]
      nofun

theorem Apart.beside {program : Prog α} {j : ι} {exchange : Exchanged} (distinct : j ≠ i)
    (apart : Apart container store (fresh j) program program' alone)
    (served : exchange.request.stored store exchange.answer = some after)
    (kept : wrote exchange.request exchange.answer = true → after.get container = store.get container) :
    Apart container after (informed fresh i exchange j) program program' alone := by
  obtain ⟨⟨known, confined, current⟩, same⟩ := apart
  obtain ⟨operation, answer⟩ := exchange
  by_cases writes : wrote operation answer = true
  · refine ⟨⟨known, confined, fun still => ?_⟩, (kept writes).trans same⟩
    have reads : read operation answer = false := by
      cases operation <;> first | rfl | cases writes
    simp [informed, reads, writes, distinct] at still
  · have still : store = after := by
      cases operation with
      | load => simpa [Request.stored] using (Option.ite_none_right_eq_some.mp served).2
      | save next =>
        cases answer with
        | ok value => exact absurd rfl writes
        | error e => exact Option.some.inj served
      | _ => exact Option.some.inj served
    subst still
    refine ⟨⟨known, confined, fun still => current ?_⟩, same⟩
    by_cases reads : read operation answer = true
    · simpa [informed, reads, distinct] using still
    · simpa [informed, reads, writes] using still

theorem follows_nil {program rest : Prog α} (follows : Follows program [] rest) : program = rest := by
  cases follows
  rfl

theorem follows_request {β : Type} {operation : Request β} {answer : β} {program rest : Prog α} {trace : List Exchanged}
    (follows : Follows program (⟨operation, answer⟩ :: trace) rest) :
    ∃ next, program = .request operation next ∧ Follows (next answer) trace rest := by
  cases follows with
  | cons follows => exact ⟨_, rfl, follows⟩

/-- Rounds of different subjects whose saves do not cross each end as they would alone,
given the same answers from outside. -/
theorem apart_throughout {subject : ι → String} (distinct : ∀ i j, i ≠ j → subject i ≠ subject j)
    {schedule : List (ι × Exchanged)} {store final : HaStore} {fresh : ι → Bool} {program program' rest : ι → Prog α}
    {alone : ι → HaStore} (together : ∀ i, Apart (subject i) store (fresh i) (program i) (program' i) (alone i))
    (uncrossed : Uncrossed fresh schedule) (played : replay store (schedule.map (·.2)) = some final)
    (runs : ∀ i, Follows (program i) (share i schedule) (rest i)) (i : ι) :
    ∃ trace' rest' alone', Follows (program' i) trace' rest' ∧
      List.Forall₂ (Alike (subject i)) (share i schedule) trace' ∧ replay (alone i) trace' = some alone' ∧
      final.get (subject i) = alone'.get (subject i) ∧ ∀ value, rest i = .pure value → rest' = .pure value := by
  induction schedule generalizing store fresh program program' alone with
  | nil =>
    cases played
    refine ⟨[], program' i, alone i, .nil, .nil, rfl, (together i).same, fun value ended => ?_⟩
    obtain ⟨known, confined, -⟩ := (together i).confined
    have stands : program i = .pure value := by
      have nothing := runs i
      rw [ended] at nothing
      exact follows_nil nothing
    rw [stands] at confined
    exact confined.of_pure
  | cons turn schedule ih =>
    obtain ⟨j, operation, answer⟩ := turn
    obtain ⟨kept, uncrossed⟩ := uncrossed
    obtain ⟨after, served, played⟩ := Option.bind_eq_some_iff.mp played
    have own : share j ((j, ⟨operation, answer⟩) :: schedule) = ⟨operation, answer⟩ :: share j schedule := by
      simp [share]
    have others {k : ι} (differs : k ≠ j) : share k ((j, ⟨operation, answer⟩) :: schedule) = share k schedule := by
      simp [share, differs.symm]
    obtain ⟨next, here, follows⟩ := follows_request (own ▸ runs j)
    obtain ⟨exchange', next', alone', first, alike, served', apart, unchanged⟩ := (here ▸ together j).step served kept
    have moved : ∀ k, Apart (subject k) after (informed fresh j ⟨operation, answer⟩ k)
        (Function.update program j (next answer) k) (Function.update program' j next' k) (Function.update alone j alone' k) := by
      intro k
      by_cases same : k = j
      · subst same
        simpa using apart
      · simp only [Function.update_of_ne same]
        exact (together k).beside same served fun writes => unchanged writes _ (distinct k j same)
    have later : ∀ k, Follows (Function.update program j (next answer) k) (share k schedule) (rest k) := by
      intro k
      by_cases same : k = j
      · subst same
        simpa using follows
      · rw [Function.update_of_ne same, ← others same]
        exact runs k
    obtain ⟨trace', rest', ended, goes, agrees, replayed, same⟩ := ih moved uncrossed played later
    by_cases mine : i = j
    · subst mine
      rw [Function.update_self] at goes replayed
      refine ⟨exchange' :: trace', rest', ended, ?_, ?_, ?_, same⟩
      · exact first.trans goes
      · rw [own]
        exact .cons alike agrees
      · rw [replay, served', Option.bind_some, replayed]
    · rw [Function.update_of_ne mine] at goes replayed
      rw [others mine]
      exact ⟨trace', rest', ended, goes, agrees, replayed, same⟩

end

/-- What a round leaves by itself, given the answers that it got from outside. -/
def Alone {α : Type} (container : String) (program : Prog α) (store : HaStore) (trace : List Exchanged) (rest : Prog α)
    (alone : HaStore) : Prop :=
  ∃ trace', Follows program trace' rest ∧ List.Forall₂ (Alike container) trace trace' ∧ replay store trace' = some alone

theorem alike_load {container : String} {store : HaStore} {exchange : Exchanged}
    (alike : Alike container ⟨.load, store⟩ exchange) : ∃ store', exchange = ⟨.load, store'⟩ := by
  generalize same : (⟨.load, store⟩ : Exchanged) = first at alike
  cases alike with
  | load _ => exact ⟨_, rfl⟩
  | save _ => cases congrArg (fun exchange : Exchanged => read exchange.request exchange.answer) same
  | outside outside =>
    have kinds := congrArg (fun exchange : Exchanged => exchange.request.isStore) same
    cases (kinds.trans outside : true = false)

theorem alike_save {container : String} {store : HaStore} {answer : Except String Unit} {exchange : Exchanged}
    (alike : Alike container ⟨.save store, answer⟩ exchange) : ∃ store', exchange = ⟨.save store', answer⟩ := by
  generalize same : (⟨.save store, answer⟩ : Exchanged) = first at alike
  cases alike with
  | load _ => cases congrArg (fun exchange : Exchanged => read exchange.request exchange.answer) same
  | save _ =>
    cases same
    exact ⟨_, rfl⟩
  | outside outside =>
    have kinds := congrArg (fun exchange : Exchanged => exchange.request.isStore) same
    cases (kinds.trans outside : true = false)

theorem alike_outside {container : String} {β : Type} {operation : Request β} {answer : β} {exchange : Exchanged}
    (outside : operation.Outside) (alike : Alike container ⟨operation, answer⟩ exchange) : exchange = ⟨operation, answer⟩ := by
  generalize same : (⟨operation, answer⟩ : Exchanged) = first at alike
  have kinds := congrArg (fun exchange : Exchanged => exchange.request.isStore) same
  cases alike with
  | load _ => cases (kinds.symm.trans outside : true = false)
  | save _ => cases (kinds.symm.trans outside : true = false)
  | outside _ => rfl

theorem alone_unique {α : Type} {container : String} {program rest rest' : Prog α} {store alone alone' : HaStore}
    {trace : List Exchanged} (first : Alone container program store trace rest alone)
    (second : Alone container program store trace rest' alone') : alone = alone' := by
  obtain ⟨one, goes, alike, replayed⟩ := first
  obtain ⟨two, goes', alike', replayed'⟩ := second
  induction alike generalizing program store two with
  | nil =>
    cases alike'
    cases replayed
    exact Option.some.inj replayed'
  | @cons exchange exchange₁ _ _ here _ ih =>
    obtain ⟨exchange₂, later₂, here', later', rfl⟩ := List.forall₂_cons_left_iff.mp alike'
    obtain ⟨operation₁, answer₁⟩ := exchange₁
    obtain ⟨operation₂, answer₂⟩ := exchange₂
    obtain ⟨next, rfl, onward⟩ := follows_request goes
    obtain ⟨next', same, onward'⟩ := follows_request goes'
    obtain ⟨after, served, replayed⟩ := Option.bind_eq_some_iff.mp replayed
    obtain ⟨after', served', replayed'⟩ := Option.bind_eq_some_iff.mp replayed'
    cases same
    have answers : answer₁ = answer₂ ∧ after = after' := by
      cases here with
      | load _ =>
        obtain ⟨loaded, fixed⟩ := alike_load here'
        cases fixed
        obtain ⟨told, kept⟩ := Option.ite_none_right_eq_some.mp served
        obtain ⟨told', kept'⟩ := Option.ite_none_right_eq_some.mp served'
        exact ⟨told.trans told'.symm, Option.some.inj (kept.symm.trans kept')⟩
      | save _ =>
        obtain ⟨saved, fixed⟩ := alike_save here'
        cases fixed
        exact ⟨rfl, Option.some.inj (served.symm.trans served')⟩
      | outside outside =>
        cases alike_outside outside here'
        exact ⟨rfl, Option.some.inj (served.symm.trans served')⟩
    obtain ⟨rfl, rfl⟩ := answers
    exact ih onward replayed _ onward' later' replayed'

end WolfHa
