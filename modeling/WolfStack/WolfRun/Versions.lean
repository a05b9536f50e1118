import WolfStack.Effects.Spread
import WolfStack.WolfRun.Gossip

/-! What every section leaves of the versions of a service. Each version is a fact of the
node that made it, known where the list has that version or a newer one. -/

namespace WolfRun
open Effects
open Effects.Program (send)

variable {ι : Type}

def Knows (services : Services) (fact : String × Nat) : Prop :=
  ∃ svc ∈ services, svc.id = fact.1 ∧ fact.2 ≤ svc.updatedAt

namespace Peers

def Made (w : Peers ι) (svc : WolfRunService) : Prop := ∃ author, (author, svc) ∈ w.made

def spread (w : Peers ι) : Spread ι (String × Nat) where
  knows i := Knows (w.services i)
  authored i fact := fact.1 ∉ w.gone ∧ ∃ svc, (i, svc) ∈ w.made ∧ svc.id = fact.1 ∧ svc.updatedAt = fact.2
  heard i j := w.heard i j = true

structure Carries (w : Peers ι) (author : ι) (mark : Nat) (services : Services) : Prop where
  made : ∀ svc ∈ services, w.Made svc
  past : mark ≤ w.edits
  covers : mark = w.edits → w.spread.Covers author (Knows services)

structure Valid (w : Peers ι) : Prop where
  spread : w.spread.Valid
  stamped : ∀ origin ∈ w.made, origin.2.updatedAt ≤ w.clock origin.1
  held : ∀ i, ∀ svc ∈ w.services i, w.Made svc
  posted : ∀ message ∈ w.posted, w.Carries message.sender message.mark message.services
  listed : ∀ thread mark services, w.listed thread = some (mark, services) → w.Carries thread.1 mark services
  taken : ∀ thread message, w.taken thread = some message → message ∈ w.posted
  refused : ∀ i id, (w.stores i).deleted.contains id = true → id ∈ w.gone

/-- What no step takes back. Without a new edit there are no new versions. -/
structure Grows (before after : Peers ι) : Prop where
  clock : ∀ i, before.clock i ≤ after.clock i
  gone : ∀ id ∈ before.gone, id ∈ after.gone
  made : ∀ origin ∈ before.made, origin ∈ after.made
  edits : before.edits < after.edits ∨ (after.edits = before.edits ∧ after.made = before.made)

variable {w after : Peers ι}

theorem Grows.refl (w : Peers ι) : w.Grows w :=
  ⟨fun _ => Nat.le_refl _, fun _ member => member, fun _ member => member, .inr ⟨rfl, rfl⟩⟩

theorem Grows.authored (grows : w.Grows after) (quiet : after.edits = w.edits) (i : ι) (fact : String × Nat)
    (authored : after.spread.authored i fact) : w.spread.authored i fact := by
  obtain ⟨wanted, svc, made, same⟩ := authored
  rcases grows.edits with more | ⟨-, equal⟩
  · omega
  · exact ⟨fun gone => wanted (grows.gone _ gone), svc, equal ▸ made, same⟩

theorem Carries.later (grows : w.Grows after) {author : ι} {mark : Nat} {services : Services}
    (carries : w.Carries author mark services) : after.Carries author mark services where
  made svc member := by
    obtain ⟨maker, made⟩ := carries.made svc member
    exact ⟨maker, grows.made _ made⟩
  past := by
    have past := carries.past
    rcases grows.edits with more | ⟨same, -⟩ <;> omega
  covers latest := by
    have past := carries.past
    rcases grows.edits with more | ⟨same, -⟩
    · omega
    · apply (carries.covers (latest.trans same)).fewer
      exact grows.authored same author

theorem Valid.step (valid : w.Valid) (grows : w.Grows after) (spread : after.spread.Valid)
    (stamped : ∀ origin ∈ after.made, origin ∈ w.made ∨ origin.2.updatedAt ≤ after.clock origin.1)
    (held : ∀ i, ∀ svc ∈ after.services i, svc ∈ w.services i ∨ after.Made svc)
    (posted : ∀ message ∈ after.posted, message ∈ w.posted ∨ after.Carries message.sender message.mark message.services)
    (listed : ∀ thread mark services, after.listed thread = some (mark, services) →
      w.listed thread = some (mark, services) ∨ after.Carries thread.1 mark services)
    (taken : ∀ thread message, after.taken thread = some message → message ∈ after.posted)
    (refused : ∀ i id, (after.stores i).deleted.contains id = true → (w.stores i).deleted.contains id = true ∨ id ∈ after.gone) :
    after.Valid where
  spread := spread
  stamped origin member := by
    rcases stamped origin member with old | new
    · exact Nat.le_trans (valid.stamped origin old) (grows.clock _)
    · exact new
  held i svc member := by
    rcases held i svc member with old | new
    · obtain ⟨author, made⟩ := valid.held i svc old
      exact ⟨author, grows.made _ made⟩
    · exact new
  posted message member := by
    rcases posted message member with old | new
    · exact (valid.posted message old).later grows
    · exact new
  listed thread mark services found := by
    rcases listed thread mark services found with old | new
    · exact (valid.listed thread mark services old).later grows
    · exact new
  taken := taken
  refused i id found := by
    rcases refused i id found with old | new
    · exact grows.gone _ (valid.refused i id old)
    · exact new

/-! ### One section -/

variable [DecidableEq ι]

@[simp] theorem withStore_services_self (i : ι) (store : Store) : (w.withStore i store).services i = store.services := by
  simp [withStore, services]

theorem withStore_services_other {i j : ι} (other : j ≠ i) (store : Store) : (w.withStore i store).services j = w.services j := by
  simp [withStore, services, other]

theorem withStore_services (i j : ι) (store : Store) :
    (w.withStore i store).services j = if j = i then store.services else w.services j := by
  by_cases same : j = i
  · subst j
    simp
  · rw [withStore_services_other same, if_neg same]

theorem withStore_deleted {i j : ι} {store : Store} {id : String}
    (contained : ((w.withStore i store).stores j).deleted.contains id = true) :
    store.deleted.contains id = true ∨ (w.stores j).deleted.contains id = true := by
  by_cases same : j = i
  · subst j
    simp only [withStore, Function.update_self] at contained
    exact .inl contained
  · simp only [withStore, Function.update_of_ne same] at contained
    exact .inr contained

theorem Valid.stored (valid : w.Valid) {i : ι} {store : Store} (same : store.services = w.services i)
    (refused : ∀ id, store.deleted.contains id = true → id ∈ w.gone) : (w.withStore i store).Valid := by
  have services : (w.withStore i store).services = w.services := by
    funext j
    rw [withStore_services]
    split
    · rename_i equal
      rw [same, equal]
    · rfl
  have spread : (w.withStore i store).spread = w.spread := by
    rw [Peers.spread, Peers.spread, services]
    rfl
  apply valid.step
  · exact ⟨fun _ => Nat.le_refl _, fun _ member => member, fun _ member => member, .inr ⟨rfl, rfl⟩⟩
  · rw [spread]
    exact valid.spread
  · exact fun _ member => .inl member
  · intro j svc member
    rw [services] at member
    exact .inl member
  · exact fun _ member => .inl member
  · exact fun _ _ _ found => .inl found
  · exact valid.taken
  · intro j id contained
    rcases withStore_deleted contained with here | there
    · exact .inr (refused id here)
    · exact .inl there

theorem Valid.edited (valid : w.Valid) {i : ι} {svc : WolfRunService} {store : Store}
    (deleted : store.deleted = (w.stores i).deleted) (now : svc.updatedAt ≤ w.clock i)
    (held : ∀ other ∈ store.services, other = svc ∨ other ∈ w.services i)
    (covers : ((w.edit i svc).withStore i store).spread.Covers i (Knows store.services)) :
    ((w.edit i svc).withStore i store).Valid := by
  apply valid.step
  · exact ⟨fun _ => Nat.le_refl _, fun _ member => member, fun _ member => List.mem_cons_of_mem _ member,
      .inl (Nat.lt_succ_self _)⟩
  · apply valid.spread.edit i
    · rintro j fact ⟨wanted, other, made, same⟩
      rcases List.mem_cons.mp made with new | old
      · cases new
        exact .inr rfl
      · exact .inl ⟨wanted, other, old, same⟩
    · simpa [Peers.spread] using covers
    · intro j other fact known
      change Knows (services (withStore _ i store) j) fact
      rw [withStore_services_other other]
      exact known
    · intro j k told
      cases told
  · intro origin member
    rcases List.mem_cons.mp member with rfl | old
    · exact .inr now
    · exact .inl old
  · intro j other member
    rw [withStore_services] at member
    split at member
    · rename_i same
      subst j
      rcases held other member with rfl | old
      · exact .inr ⟨i, List.mem_cons_self⟩
      · exact .inl old
    · exact .inl member
  · exact fun _ member => .inl member
  · exact fun _ _ _ found => .inl found
  · exact valid.taken
  · intro j id contained
    rcases withStore_deleted contained with here | there
    · rw [deleted] at here
      exact .inr (valid.refused i id here)
    · exact .inl there

theorem Valid.forget (valid : w.Valid) {i : ι} {gone : List String} {store : Store}
    (deleted : store.deleted = (w.stores i).deleted) (more : ∀ id ∈ w.gone, id ∈ gone)
    (fewer : ∀ svc ∈ store.services, svc ∈ w.services i)
    (kept : ∀ svc ∈ w.services i, svc.id ∉ gone → svc ∈ store.services) :
    ({ w with gone }.withStore i store).Valid := by
  apply valid.step
  · exact ⟨fun _ => Nat.le_refl _, more, fun _ member => member, .inr ⟨rfl, rfl⟩⟩
  · apply valid.spread.advance
    · rintro j fact ⟨wanted, made⟩
      exact ⟨fun there => wanted (more _ there), made⟩
    · rintro author j fact ⟨wanted, -⟩ ⟨svc, member, named, newer⟩
      change Knows (services (withStore _ i store) j) fact
      rw [withStore_services]
      split
      · rename_i same
        subst j
        exact ⟨svc, kept svc member (named ▸ wanted), named, newer⟩
      · exact ⟨svc, member, named, newer⟩
    · exact fun _ _ told => .inl told
  · exact fun _ member => .inl member
  · intro j svc member
    rw [withStore_services] at member
    split at member
    · rename_i same
      subst j
      exact .inl (fewer svc member)
    · exact .inl member
  · exact fun _ member => .inl member
  · exact fun _ _ _ found => .inl found
  · exact valid.taken
  · intro j id contained
    rcases withStore_deleted contained with here | there
    · rw [deleted] at here
      exact .inr (more _ (valid.refused i id here))
    · exact .inl there

theorem Valid.list (valid : w.Valid) (thread : ι × Nat) : (w.list thread (w.services thread.1)).Valid := by
  have grows : w.Grows (w.list thread (w.services thread.1)) :=
    ⟨fun _ => Nat.le_refl _, fun _ member => member, fun _ member => member, .inr ⟨rfl, rfl⟩⟩
  apply valid.step grows
  · apply valid.spread.advance
    · exact fun _ _ authored => authored
    · exact fun _ _ _ _ known => known
    · intro i j told
      by_cases none_ : w.services thread.1 = []
      · by_cases same : i = thread.1
        · -- A node without services has made none that still matters.
          subst i
          right
          intro fact authored
          obtain ⟨svc, member, -⟩ := valid.spread.own thread.1 fact authored
          rw [none_] at member
          cases member
        · simp only [Peers.spread, Peers.list, none_, if_true, Function.update_of_ne same] at told
          exact .inl told
      · simp only [Peers.spread, Peers.list, none_, if_false] at told
        exact .inl told
  · exact fun _ member => .inl member
  · exact fun _ _ member => .inl member
  · exact fun _ member => .inl member
  · intro other mark services found
    by_cases same : other = thread
    · subst other
      simp only [Peers.list, Function.update_self, Option.some.injEq, Prod.mk.injEq] at found
      obtain ⟨rfl, rfl⟩ := found
      exact .inr ⟨valid.held thread.1, Nat.le_refl _, fun _ => valid.spread.own thread.1⟩
    · simp only [Peers.list, Function.update_of_ne same] at found
      exact .inl found
  · exact valid.taken
  · exact fun _ _ contained => .inl contained

structure Accepts (w : Peers ι) (thread : ι × Nat) (clusters : List String) (accepted : Services) : Prop where
  message : ∃ message, w.taken thread = some message ∧ clusters = message.services.map WolfRunService.clusterName ∧
    (∀ svc ∈ accepted, svc ∈ message.services) ∧ ∀ svc ∈ message.services, svc.id ∉ w.gone → svc ∈ accepted

theorem Valid.merge (valid : w.Valid) {thread : ι × Nat} {clusters : List String} {accepted : Services} {store : Store}
    (accepts : w.Accepts thread clusters accepted) (uncrossed : w.Uncrossed thread.1 (.replaceClusters clusters accepted))
    (replaced : store.services = (w.services thread.1).replaceClusters clusters accepted)
    (deleted : store.deleted = (w.stores thread.1).deleted) :
    ((w.hear thread).withStore thread.1 store).Valid := by
  obtain ⟨message, taken, rfl, fewer, all⟩ := accepts.message
  have there := valid.taken thread message taken
  have carries := valid.posted message there
  -- Both what the node knew and what the message carries is known afterwards.
  have kept : ∀ fact : String × Nat, fact.1 ∉ w.gone → Knows (w.services thread.1) fact → Knows store.services fact := by
    rintro fact wanted ⟨svc, member, named, newer⟩
    rw [replaced]
    by_cases inside : svc.clusterName ∈ message.services.map WolfRunService.clusterName
    · obtain ⟨other, put, same, later⟩ := uncrossed svc member (named ▸ wanted) inside
      exact ⟨other, Services.mem_replaceClusters.mpr (.inr put), same.trans named, Nat.le_trans newer later⟩
    · exact ⟨svc, Services.mem_replaceClusters.mpr (.inl ⟨member, inside⟩), named, newer⟩
  have learnt : ∀ fact : String × Nat, fact.1 ∉ w.gone → Knows message.services fact → Knows store.services fact := by
    rintro fact wanted ⟨svc, member, named, newer⟩
    rw [replaced]
    exact ⟨svc, Services.mem_replaceClusters.mpr (.inr (all svc member (named ▸ wanted))), named, newer⟩
  have heard : w.hear thread = { w with heard := (w.hear thread).heard } := by
    unfold hear
    rw [taken]
    dsimp only
    split <;> rfl
  have told : ∀ i j, (w.hear thread).heard i j = true →
      w.heard i j = true ∨ (i = message.sender ∧ j = thread.1 ∧ message.mark = w.edits) := by
    intro i j told
    unfold hear at told
    rw [taken] at told
    dsimp only at told
    split at told
    · rename_i latest
      by_cases sender : i = message.sender
      · subst i
        by_cases receiver : j = thread.1
        · exact .inr ⟨rfl, receiver, latest⟩
        · simp only [Function.update_self, Function.update_of_ne receiver] at told
          exact .inl told
      · simp only [Function.update_of_ne sender] at told
        exact .inl told
    · exact .inl told
  rw [heard]
  apply valid.step
  · exact ⟨fun _ => Nat.le_refl _, fun _ member => member, fun _ member => member, .inr ⟨rfl, rfl⟩⟩
  · apply valid.spread.advance
    · exact fun _ _ authored => authored
    · rintro author j fact ⟨wanted, -⟩ known
      change Knows (services (withStore _ thread.1 store) j) fact
      rw [withStore_services]
      split
      · rename_i same
        subst j
        exact kept fact wanted known
      · exact known
    · intro i j now
      rcases told i j now with before_ | ⟨rfl, rfl, latest⟩
      · exact .inl before_
      · right
        intro fact authored
        change Knows (services (withStore _ thread.1 store) thread.1) fact
        rw [withStore_services_self]
        exact learnt fact authored.1 (carries.covers latest fact authored)
  · exact fun _ member => .inl member
  · intro j svc member
    rw [withStore_services] at member
    split at member
    · rename_i same
      subst j
      rw [replaced] at member
      rcases Services.mem_replaceClusters.mp member with ⟨old, -⟩ | put
      · exact .inl old
      · exact .inr (carries.made svc (fewer svc put))
    · exact .inl member
  · exact fun _ member => .inl member
  · exact fun _ _ _ found => .inl found
  · exact valid.taken
  · intro j id contained
    rcases withStore_deleted contained with here | elsewhere
    · rw [deleted] at here
      exact .inr (valid.refused _ _ here)
    · exact .inl elsewhere

end Peers
end WolfRun
