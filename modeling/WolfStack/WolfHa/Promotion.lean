import WolfStack.WolfHa.Roles

/-! When an operator's promotion is warranted: `wolfha_promote` goes on to
`promote_local` whatever the old primary replied. -/

namespace WolfHa
open Effects
open Effects.Program (send)

/-- What the promoting node is told: its own store and identity, the addresses of the
old primary, and the reply on each of them. -/
structure Told where
  store : HaStore
  me : Option HaPeer
  wolfnetIp : String → Option String
  reply : Url → Answer (Option String)

def Told.answer (told : Told) : {β : Type} → Request β → Option β
  | _, .load => some told.store
  | _, .selfPeer => some told.me
  | _, .lookupNodeWolfnetIp address => some (told.wolfnetIp address)
  | _, .postDemote url _ => some (told.reply url)
  | _, _ => none

section
variable (told : Told) (address : String) (url : Url) (form : DemoteForm)

@[simp] theorem answer_load : told.answer .load = some told.store := rfl
@[simp] theorem answer_selfPeer : told.answer .selfPeer = some told.me := rfl
@[simp] theorem answer_lookup : told.answer (.lookupNodeWolfnetIp address) = some (told.wolfnetIp address) := rfl
@[simp] theorem answer_postDemote : told.answer (.postDemote url form) = some (told.reply url) := rfl

end

/-- The addresses of a peer, in the order they are tried. -/
def nodeUrls (wolfnetIp : String → Option String) (address : String) (port : UInt16) : List Url :=
  match wolfnetIp address with
  | some ip => [⟨true, address, port⟩, ⟨false, ip, port + 1⟩, ⟨false, address, port⟩]
  | none => [⟨true, address, port⟩, ⟨false, address, port⟩]

def Answer.confirms {α : Type} : Answer α → Bool
  | .success _ => true
  | _ => false

def Answer.silent {α : Type} : Answer α → Bool
  | .unreachable _ => true
  | _ => false

def Answer.couldNotStop {α : Type} : Answer α → Bool
  | .failure _ body => contains body "could not stop"
  | _ => false

/-- The replies that come in: no address is tried after a confirmation. -/
def given {α : Type} (reply : Url → Answer α) : List Url → List (Answer α)
  | [] => []
  | url :: urls => if (reply url).confirms then [reply url] else reply url :: given reply urls

namespace Told
variable (told : Told) (container : String)

def replies : List (Answer (Option String)) :=
  match (told.store.get container).bind HaEntry.primary with
  | some primary => given told.reply (nodeUrls told.wolfnetIp primary.address primary.port)
  | none => []

/-- `promote_local` is run. -/
def Promotes : Prop := ∃ me handoff, (demandHandoff container).evaluate told.answer = some (.ok (me, handoff))

/-- The old primary confirmed, or answered on no address; and it never answered that it
could not stop. -/
structure Warranted : Prop where
  settled : (∃ reply ∈ told.replies container, reply.confirms) ∨ ∀ reply ∈ told.replies container, reply.silent
  stopped : ∀ reply ∈ told.replies container, reply.couldNotStop = false

end Told

section

variable (told : Told) (form : DemoteForm)

theorem askToDemote_ends (urls : List Url) : ∃ message, (askToDemote form urls).evaluate told.answer = some message := by
  induction urls with
  | nil => exact ⟨none, rfl⟩
  | cons url urls ih =>
    simp only [askToDemote, Program.bind_eq, Program.send_bind, Program.evaluate_request, answer_postDemote, Option.bind_some]
    cases told.reply url with
    | success message => exact ⟨_, rfl⟩
    | failure status body => exact ih
    | unreachable why => exact ih

theorem handoffMessage_ends (primary : Option HaPeer) :
    ∃ message, (handoffMessage form primary).evaluate told.answer = some message := by
  cases primary with
  | none => exact ⟨_, rfl⟩
  | some primary =>
    have urls : (buildNodeUrls primary.address primary.port).evaluate told.answer =
        some (nodeUrls told.wolfnetIp primary.address primary.port) := by
      rw [buildNodeUrls, nodeUrls, Program.bind_eq, Program.send_bind, Program.evaluate_request]
      simp only [answer_lookup, Option.bind_some]
      cases told.wolfnetIp primary.address <;> rfl
    obtain ⟨message, asked⟩ := askToDemote_ends told form (nodeUrls told.wolfnetIp primary.address primary.port)
    refine ⟨message.getD "current primary unreachable — taking over with the last synced state", ?_⟩
    rw [handoffMessage, Program.bind_eq, Program.evaluate_bind, urls, Option.bind_some, Program.bind_eq,
      Program.evaluate_bind, asked]
    rfl

theorem promotes_iff (container : String) : told.Promotes container ↔
    ∃ entry me, told.store.get container = some entry ∧ ¬(entry.role = .primary ∧ entry.stale = false) ∧
      told.me = some me := by
  rw [Told.Promotes, demandHandoff, loadStore]
  simp only [Program.bind_eq, Program.send_bind, Program.evaluate_request, answer_load, Option.bind_some]
  cases told.store.get container with
  | none => simp
  | some entry =>
    by_cases active : entry.role = .primary ∧ entry.stale = false
    · simp [active]
    · simp only [if_neg active, Program.evaluate_request, answer_selfPeer, Option.bind_some]
      cases told.me with
      | none => simp
      | some me =>
        obtain ⟨message, ended⟩ := handoffMessage_ends told ⟨container, me, true⟩ entry.primary
        simp only [Program.evaluate_bind, ended, Option.bind_some, Program.pure_eq, Program.evaluate_pure]
        simpa using active

end

section

variable {α : Type} {reply : Url → Answer α} {urls before after : List Url} {url : Url}

theorem given_all (none_ : ∀ url ∈ urls, (reply url).confirms = false) : given reply urls = urls.map reply := by
  induction urls with
  | nil => rfl
  | cons url urls ih =>
    rw [given, if_neg (by simp [none_ url List.mem_cons_self]), List.map_cons,
      ih fun other member => none_ other (List.mem_cons_of_mem url member)]

theorem given_until (none_ : ∀ url ∈ before, (reply url).confirms = false) (confirmed : (reply url).confirms = true) :
    given reply (before ++ url :: after) = before.map reply ++ [reply url] := by
  induction before with
  | nil => rw [List.nil_append, given, if_pos confirmed, List.map_nil, List.nil_append]
  | cons first rest ih =>
    rw [List.cons_append, given, if_neg (by simp [none_ first List.mem_cons_self]), List.map_cons, List.cons_append,
      ih fun other member => none_ other (List.mem_cons_of_mem first member)]

theorem first_confirmed (confirmed : ∃ url ∈ urls, (reply url).confirms = true) : ∃ before url after,
    urls = before ++ url :: after ∧ (reply url).confirms = true ∧ ∀ other ∈ before, (reply other).confirms = false := by
  obtain ⟨url, member, confirms⟩ := confirmed
  obtain ⟨found, same⟩ := Option.isSome_iff_exists.mp
    ((@List.find?_isSome _ urls fun url => (reply url).confirms).mpr ⟨url, member, confirms⟩)
  obtain ⟨here, before, after, split, unconfirmed⟩ := List.find?_eq_some_iff_append.mp same
  exact ⟨before, found, after, split, here, fun other member => by simpa using unconfirmed other member⟩

end

/-- No address of the old primary answers; or one confirms, and none that was asked before
it answered that its copy could not be stopped. -/
def Told.Yields (told : Told) (urls : List Url) : Prop :=
  (∀ url ∈ urls, (told.reply url).silent) ∨ ∃ before url after, urls = before ++ url :: after ∧
    (told.reply url).confirms ∧ ∀ other ∈ before, (told.reply other).couldNotStop = false

theorem yields_iff (told : Told) (urls : List Url) :
    ((∃ reply ∈ given told.reply urls, reply.confirms) ∨ ∀ reply ∈ given told.reply urls, reply.silent) ∧
      (∀ reply ∈ given told.reply urls, reply.couldNotStop = false) ↔ told.Yields urls := by
  have silent_confirms (reply : Answer (Option String)) (silent : reply.silent = true) :
      reply.confirms = false ∧ reply.couldNotStop = false := by
    cases reply <;> first | exact ⟨rfl, rfl⟩ | cases silent
  have confirms_stops (reply : Answer (Option String)) (confirms : reply.confirms = true) : reply.couldNotStop = false := by
    cases reply <;> first | rfl | cases confirms
  by_cases confirmed : ∃ url ∈ urls, (told.reply url).confirms = true
  · obtain ⟨before, url, after, split, confirms, unconfirmed⟩ := first_confirmed confirmed
    have replies := split ▸ given_until unconfirmed confirms
    rw [replies]
    simp only [List.mem_append, List.mem_map, List.mem_singleton]
    constructor
    · rintro ⟨-, stopped⟩
      exact .inr ⟨before, url, after, split, confirms, fun other member => stopped _ (.inl ⟨other, member, rfl⟩)⟩
    · intro yields
      refine ⟨.inl ⟨_, .inr rfl, confirms⟩, ?_⟩
      rintro reply (⟨other, member, rfl⟩ | rfl)
      · rcases yields with silent | ⟨before', url', after', split', confirms', stopped⟩
        · exact (silent_confirms _ (silent other (split ▸ List.mem_append_left _ member))).2
        · -- no address before the first confirmation is behind another one
          have within : other ∈ before' := by
            rcases List.append_eq_append_iff.mp (split.symm.trans split') with ⟨more, same, -⟩ | ⟨more, same, rest⟩
            · exact same ▸ List.mem_append_left _ member
            · cases more with
              | nil => simpa [same] using member
              | cons head more =>
                obtain ⟨rfl, -⟩ := List.cons.inj rest
                have behind := unconfirmed url' (same ▸ List.mem_append_right _ List.mem_cons_self)
                rw [confirms'] at behind
                cases behind
          exact stopped other within
      · exact confirms_stops _ confirms
  · have unconfirmed : ∀ url ∈ urls, (told.reply url).confirms = false := by
      simpa using confirmed
    rw [given_all unconfirmed]
    simp only [List.mem_map, forall_exists_index, and_imp, forall_apply_eq_imp_iff₂]
    constructor
    · rintro ⟨⟨reply, ⟨url, member, rfl⟩, confirms⟩ | silent, -⟩
      · rw [unconfirmed url member] at confirms
        cases confirms
      · exact .inl silent
    · rintro (silent | ⟨before, url, after, rfl, confirms, -⟩)
      · exact ⟨.inr silent, fun url member => (silent_confirms _ (silent url member)).2⟩
      · rw [unconfirmed url (List.mem_append_right _ List.mem_cons_self)] at confirms
        cases confirms

/-- A promotion that goes ahead is warranted exactly when the old primary, if one is
recorded, yields on its addresses. -/
theorem promotion_warranted_iff (told : Told) (container : String) :
    (told.Promotes container → told.Warranted container) ↔
      ∀ entry me primary, told.store.get container = some entry → ¬(entry.role = .primary ∧ entry.stale = false) →
        told.me = some me → entry.primary = some primary →
          told.Yields (nodeUrls told.wolfnetIp primary.address primary.port) := by
  rw [promotes_iff]
  constructor
  · intro warranted entry me primary found inactive known recorded
    obtain ⟨settled, stopped⟩ := warranted ⟨entry, me, found, inactive, known⟩
    have replies : told.replies container = given told.reply (nodeUrls told.wolfnetIp primary.address primary.port) := by
      rw [Told.replies, found, Option.bind_some, recorded]
    rw [replies] at settled stopped
    exact (yields_iff told _).mp ⟨settled, stopped⟩
  · rintro yields ⟨entry, me, found, inactive, known⟩
    cases recorded : entry.primary with
    | none =>
      have replies : told.replies container = [] := by
        rw [Told.replies, found, Option.bind_some, recorded]
      exact ⟨.inr (by simp [replies]), by simp [replies]⟩
    | some primary =>
      have replies : told.replies container = given told.reply (nodeUrls told.wolfnetIp primary.address primary.port) := by
        rw [Told.replies, found, Option.bind_some, recorded]
      obtain ⟨settled, stopped⟩ := (yields_iff told _).mpr (yields entry me primary found inactive known recorded)
      exact ⟨replies ▸ settled, replies ▸ stopped⟩

def stuckStore : HaStore := ⟨[{ HaEntry.blank "web" .vm none with role := .primary, vmChain := some "base" }]⟩

def stuck : {β : Type} → Request β → Option β
  | _, .load => some stuckStore
  | _, .subjectIsRunning _ _ => some true
  | _, .pauseVm _ => some (.error "QMP socket unavailable")
  | _, .stopVm _ _ => some (.error "permission denied")
  | _, _ => none

def standbyTold : Told where
  store := ⟨[HaEntry.blank "web" .vm (some ⟨"alpha", "10.0.0.1", 8553⟩)]⟩
  me := some ⟨"beta", "10.0.0.2", 8553⟩
  wolfnetIp _ := none
  reply _ := .failure "400 Bad Request" (errorBody "could not stop VM 'web' for handoff: permission denied")

/-- The old primary answers that its VM could not be stopped, and the copy is promoted. -/
theorem promoted_beside_running :
    (wolfhaDemote ⟨"web", ⟨"beta", "10.0.0.2", 8553⟩, true⟩).evaluate stuck =
      some (.error "could not stop VM 'web' for handoff: permission denied") ∧
    standbyTold.Promotes "web" ∧ ¬standbyTold.Warranted "web" := by
  refine ⟨rfl, (promotes_iff _ _).mpr ⟨_, _, rfl, by decide, rfl⟩, fun warranted => ?_⟩
  have refused := warranted.stopped _ List.mem_cons_self
  exact absurd refused (by decide +kernel)

end WolfHa
