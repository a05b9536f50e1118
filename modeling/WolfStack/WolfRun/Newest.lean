import WolfStack.WolfRun.Versions
import Mathlib.Data.Finset.Max

/-! Does gossip bring the newest version of every service to every node? The tasks of the
nodes run among each other, and a merge may come in at any time. -/

namespace WolfRun
open Effects
open Effects.Program (send)

variable {ι : Type} [DecidableEq ι]

namespace Peers
variable {w : Peers ι}

structure Keeps (thread : ι × Nat) (before after : Peers ι) : Prop extends before.Grows after where
  listed : after.listed thread = before.listed thread
  taken : after.taken thread = before.taken thread

def Promise (thread : ι × Nat) (before after : Peers ι) : Prop := ∀ other, other ≠ thread → before.Keeps other after

theorem noted_promise (w : Peers ι) (thread : ι × Nat) {β : Type} (operation : Section β) (store : Store) :
    Promise thread w ((w.noted thread operation).withStore thread.1 store) := by
  intro other apart
  have idle : w.Keeps other (w.withStore thread.1 store) := ⟨⟨fun _ => Nat.le_refl _, fun _ member => member,
    fun _ member => member, .inr ⟨rfl, rfl⟩⟩, rfl, rfl⟩
  have edit : ∀ svc, w.Keeps other ((w.edit thread.1 svc).withStore thread.1 store) := fun svc =>
    ⟨⟨fun _ => Nat.le_refl _, fun _ member => member, fun _ member => List.mem_cons_of_mem _ member,
      .inl (Nat.lt_succ_self _)⟩, rfl, rfl⟩
  cases operation with
  | push svc => exact edit svc
  | write id edit_ =>
    simp only [noted]
    split
    · exact edit _
    · exact idle
  | list cluster =>
    cases cluster with
    | none =>
      refine ⟨⟨fun _ => Nat.le_refl _, fun _ member => member, fun _ member => member, .inr ⟨rfl, rfl⟩⟩, ?_, rfl⟩
      simp [noted, Peers.list, withStore, apart]
    | some cluster => exact idle
  | removeFirst id =>
    simp only [noted]
    split
    · exact ⟨⟨fun _ => Nat.le_refl _, fun _ member => List.mem_cons_of_mem _ member, fun _ member => member,
        .inr ⟨rfl, rfl⟩⟩, rfl, rfl⟩
    · exact idle
  | replaceClusters clusters accepted =>
    simp only [noted, hear]
    split
    · split
      · exact ⟨⟨fun _ => Nat.le_refl _, fun _ member => member, fun _ member => member, .inr ⟨rfl, rfl⟩⟩, rfl, rfl⟩
      · exact idle
    · exact idle
  | removeAll _ | partition _ | get _ | remap _ _ | insertTombstone _ | saveServices | saveTombstones => exact idle

theorem withStore_keeps (w : Peers ι) (i : ι) (store : Store) (thread : ι × Nat) : w.Keeps thread (w.withStore i store) :=
  ⟨⟨fun _ => Nat.le_refl _, fun _ member => member, fun _ member => member, .inr ⟨rfl, rfl⟩⟩, rfl, rfl⟩

end Peers

abbrev taskRules (thread : ι × Nat) : Rules (Peers ι) (Joint Section (Outside ι)) :=
  (gossipSystem Peers.Uncrossed).rules Peers.Valid Peers.Promise thread

variable {thread : ι × Nat} {α β : Type}

theorem stable_of_keeps {assertion : Peers ι → Prop}
    (kept : ∀ before after, Peers.Keeps thread before after → assertion before → assertion after) :
    (taskRules thread).Stable assertion := by
  intro before after _ _ moved holds
  rcases moved with ⟨i, secs⟩ | ⟨other, apart, promised⟩
  · apply kept before _ _ holds
    refine ⟨⟨fun j => ?_, fun _ member => member, fun _ member => member, .inr ⟨rfl, rfl⟩⟩, rfl, rfl⟩
    by_cases same : j = i
    · subst j
      simp
    · simp [same]
  · exact kept before after (promised thread (Ne.symm apart)) holds

section
variable {pre : Peers ι → Prop} (middle : β → Peers ι → Prop) {post : α → Peers ι → Prop} {operation : Section β}

theorem sectionExecute
    (execute : ∀ w value store, Peers.Valid w → pre w → w.Uncrossed thread.1 operation →
      operation.Means (w.clock thread.1) (w.stores thread.1) value store →
        ((w.noted thread operation).withStore thread.1 store).Valid ∧
          middle value ((w.noted thread operation).withStore thread.1 store))
    (before : Peers ι) (value : β) (after : Peers ι) (valid : before.Valid) (holds : pre before)
    (law : (taskRules thread).commits before (.first operation) value after) :
    after.Valid ∧ Peers.Promise thread before after ∧ middle value after := by
  obtain ⟨uncrossed, store, ran, rfl⟩ := law
  obtain ⟨last, result⟩ := execute before value store valid holds uncrossed ran.means
  exact ⟨last, before.noted_promise thread operation store, result⟩

theorem sectionTriple {next : β → Program Section α}
    (kept : ∀ before after, Peers.Keeps thread before after → pre before → pre after)
    (execute : ∀ w value store, Peers.Valid w → pre w → w.Uncrossed thread.1 operation →
      operation.Means (w.clock thread.1) (w.stores thread.1) value store →
        ((w.noted thread operation).withStore thread.1 store).Valid ∧
          middle value ((w.noted thread operation).withStore thread.1 store))
    (rest : ∀ value, (taskRules thread).first.Triple (middle value) (next value) post) :
    (taskRules thread).first.Triple pre (.request operation next) post := by
  refine Rules.Triple.request ?_ (sectionExecute middle execute) rest
  exact stable_of_keeps kept

end

theorem doneTriple {pre : Peers ι → Prop} {post : α → Peers ι → Prop} {value : α}
    (kept : ∀ before after, Peers.Keeps thread before after → pre before → pre after) (holds : ∀ w, pre w → post value w) :
    (taskRules thread).first.Triple pre (.pure value) post := by
  refine Rules.Triple.pure _ ?_ fun w _ => holds w
  exact stable_of_keeps kept

section
variable {pre : Peers ι → Prop} {post : α → Peers ι → Prop}

theorem saveTriple {operation : Section Unit} {next : Unit → Program Section α}
    (save : operation = .saveServices ∨ operation = .saveTombstones)
    (kept : ∀ before after, Peers.Keeps thread before after → pre before → pre after)
    (rest : (taskRules thread).first.Triple pre (next ()) post) :
    (taskRules thread).first.Triple pre (.request operation next) post := by
  refine sectionTriple (fun _ => pre) kept ?_ fun _ => rest
  intro w value store valid holds _ ran
  have quiet : w.noted thread operation = w := by rcases save with rfl | rfl <;> rfl
  have same : store.services = w.services thread.1 ∧ store.deleted = (w.stores thread.1).deleted := by
    rcases save with rfl | rfl <;> obtain ⟨file, rfl⟩ := ran <;> exact ⟨rfl, rfl⟩
  rw [quiet]
  refine ⟨valid.stored same.1 fun id contained => ?_, kept _ _ (w.withStore_keeps _ _ _) holds⟩
  rw [same.2] at contained
  exact valid.refused _ _ contained

end

def Peers.Gone (ids : List String) (w : Peers ι) : Prop := ∀ id ∈ ids, id ∈ w.gone

omit [DecidableEq ι] in
theorem Peers.Keeps.keepsGone {ids : List String} {before after : Peers ι} (keeps : Peers.Keeps thread before after)
    (gone : before.Gone ids) : after.Gone ids :=
  fun id member => keeps.gone id (gone id member)

theorem recordTombstoneTriple {id : String} {ids : List String} (member : id ∈ ids) :
    (taskRules thread).first.Triple (Peers.Gone ids) (recordTombstone id) fun _ => Peers.Gone ids := by
  refine sectionTriple (fun _ => Peers.Gone ids) (fun _ _ => Peers.Keeps.keepsGone) ?_ fun _ => ?_
  · intro w value store valid gone _ ran
    obtain ⟨order, same, rfl⟩ := ran
    refine ⟨valid.stored rfl fun other contained => ?_, gone⟩
    obtain ⟨time, inside⟩ := Tombstones.contains_iff.mp contained
    have inserted := same.mem_iff.mp (Tombstones.mem_prune inside)
    rcases Tombstones.mem_insert.mp inserted with new | ⟨old, -⟩
    · cases new
      exact gone id member
    · exact valid.refused thread.1 other (Tombstones.contains_iff.mpr ⟨time, old⟩)
  · apply saveTriple (.inr rfl) fun _ _ => Peers.Keeps.keepsGone
    exact doneTriple (fun _ _ => Peers.Keeps.keepsGone) fun _ gone => gone

def Stamps (edit : Edit) : Prop := ∀ now svc, (edit.apply now svc).updatedAt = now

theorem editedTriple (id : String) {edit : Edit} (stamps : Stamps edit) :
    (taskRules thread).first.Triple (fun _ => True) (edited id edit) fun _ _ => True := by
  have kept : ∀ before after, Peers.Keeps thread before after → True → True := fun _ _ _ holds => holds
  refine sectionTriple (fun _ _ => True) kept ?_ fun found => ?_
  · intro w value store valid _ _ ran
    obtain ⟨rfl, rfl⟩ := ran
    refine ⟨?_, trivial⟩
    simp only [Peers.noted]
    cases found : (w.services thread.1).get id with
    | none =>
      exact valid.stored (Services.modify_missing found) fun other => valid.refused _ other
    | some svc =>
      obtain ⟨there, named⟩ := Services.mem_of_get found
      refine valid.edited ?_ (Nat.le_of_eq (stamps _ _)) ?_ ?_
      · rfl
      · intro other member
        rcases Services.mem_modify member with old | ⟨old, held, rfl⟩
        · exact .inr old
        · cases found.symm.trans held
          exact .inl rfl
      · -- The node has made no version after its clock, so the new one covers the old.
        rintro fact ⟨wanted, origin, made, same, stamp⟩
        rcases List.mem_cons.mp made with new | old
        · cases new
          exact ⟨_, Services.changed_mem_modify found, same, Nat.le_of_eq stamp.symm⟩
        · obtain ⟨other, held, alike, newer⟩ := valid.spread.own thread.1 fact ⟨wanted, origin, old, same, stamp⟩
          by_cases replaced : other.id = id
          · refine ⟨_, Services.changed_mem_modify found, ?_, ?_⟩
            · rw [Edit.apply_id, named, ← replaced, alike]
            · rw [stamps, ← stamp]
              exact valid.stamped _ old
          · exact ⟨other, Services.mem_modify_of_ne held replaced, alike, newer⟩
  · cases found with
    | false => exact doneTriple kept fun _ holds => holds
    | true => exact saveTriple (.inl rfl) kept (doneTriple kept fun _ holds => holds)

theorem pushedTriple {svc : WolfRunService} {now : Nat} (stamp : svc.updatedAt = now) :
    (taskRules thread).first.Triple (fun w => now ≤ w.clock thread.1) (pushed svc) fun _ _ => True := by
  subst now
  have kept : ∀ before after, Peers.Keeps thread before after → True → True := fun _ _ _ holds => holds
  refine sectionTriple (fun _ _ => True) ?_ ?_ fun _ => ?_
  · exact fun _ _ keeps past => Nat.le_trans past (keeps.clock _)
  · intro w value store valid past _ ran
    obtain rfl := ran
    refine ⟨valid.edited ?_ past ?_ ?_, trivial⟩
    · rfl
    · intro other member
      rcases List.mem_append.mp member with old | new
      · exact .inr old
      · exact .inl (List.mem_singleton.mp new)
    · rintro fact ⟨wanted, origin, made, same, stamp⟩
      rcases List.mem_cons.mp made with new | old
      · cases new
        exact ⟨svc, List.mem_append_right _ List.mem_cons_self, same, Nat.le_of_eq stamp.symm⟩
      · obtain ⟨other, held, newer⟩ := valid.spread.own thread.1 fact ⟨wanted, origin, old, same, stamp⟩
        exact ⟨other, List.mem_append_left _ held, newer⟩
  · exact saveTriple (.inl rfl) kept (doneTriple kept fun _ holds => holds)

theorem deleteTriple (id : String) (ids : List String) :
    (taskRules thread).first.Triple (Peers.Gone ids) (delete id) fun _ => Peers.Gone ids := by
  refine sectionTriple (fun found w => w.Gone ids ∧ (found.isSome = true → id ∈ w.gone)) (fun _ _ => Peers.Keeps.keepsGone) ?_
    fun found => ?_
  · intro w value store valid gone _ ran
    obtain ⟨rfl, rfl⟩ := ran
    simp only [Peers.noted]
    cases found : (w.services thread.1).get id with
    | none =>
      refine ⟨valid.stored (Services.removeFirst_missing found) fun other => valid.refused _ other, gone, ?_⟩
      intro some_
      rw [show (w.stores thread.1).services.get id = none from found] at some_
      cases some_
    | some svc =>
      refine ⟨valid.forget rfl ?_ ?_ ?_, fun other member => List.mem_cons_of_mem _ (gone other member),
        fun _ => List.mem_cons_self⟩
      · exact fun _ member => List.mem_cons_of_mem _ member
      · exact fun _ member => Services.mem_removeFirst member
      · exact fun _ member kept => Services.mem_removeFirst_of_ne member fun same => kept (same ▸ List.mem_cons_self)
  · cases found with
    | none =>
      apply doneTriple
      · rintro before after keeps ⟨gone, none_⟩
        exact ⟨keeps.keepsGone gone, fun impossible => by cases impossible⟩
      · exact fun _ holds => holds.1
    | some svc =>
      apply Rules.Triple.given (Peers.Gone (id :: ids))
      · apply saveTriple (.inl rfl) fun _ _ => Peers.Keeps.keepsGone
        apply Rules.Triple.bind (recordTombstoneTriple List.mem_cons_self)
        intro _
        refine doneTriple (fun _ _ => Peers.Keeps.keepsGone) ?_
        exact fun _ gone other member => gone other (List.mem_cons_of_mem _ member)
      · rintro w _ ⟨gone, here⟩ other member
        rcases List.mem_cons.mp member with rfl | old
        · exact here rfl
        · exact gone other old

theorem removeIfExistsTriple (id : String) :
    (taskRules thread).first.Triple (Peers.Gone [id]) (removeIfExists id) fun _ _ => True := by
  have record : ∀ removed : Bool, (taskRules thread).first.Triple (Peers.Gone [id])
      ((recordTombstone id).bind fun _ => .pure removed) fun _ _ => True := by
    intro removed
    apply Rules.Triple.bind (recordTombstoneTriple List.mem_cons_self)
    exact fun _ => doneTriple (fun _ _ => Peers.Keeps.keepsGone) fun _ _ => trivial
  refine sectionTriple (fun _ => Peers.Gone [id]) (fun _ _ => Peers.Keeps.keepsGone) ?_ fun removed => ?_
  · intro w value store valid gone _ ran
    obtain ⟨-, rfl⟩ := ran
    refine ⟨valid.forget rfl (fun _ member => member) ?_ ?_, gone⟩
    · exact fun _ member => (Services.mem_removeAll.mp member).1
    · intro svc member kept
      exact Services.mem_removeAll.mpr ⟨member, fun same => kept (same ▸ gone id List.mem_cons_self)⟩
  · cases removed with
    | false => exact record false
    | true => exact saveTriple (.inl rfl) (fun _ _ => Peers.Keeps.keepsGone) (record true)

theorem mergeTriple (sent : Services) : (taskRules thread).first.Triple
    (fun w => ∃ message, w.taken thread = some message ∧ message.services = sent) (mergeFromPeer sent) fun _ _ => True := by
  have kept : ∀ before after, Peers.Keeps thread before after → True → True := fun _ _ _ holds => holds
  have keptTaken : ∀ before after, Peers.Keeps thread before after →
      (∃ message, before.taken thread = some message ∧ message.services = sent) →
        ∃ message, after.taken thread = some message ∧ message.services = sent := by
    rintro before after keeps ⟨message, taken, same⟩
    exact ⟨message, keeps.taken.trans taken, same⟩
  unfold mergeFromPeer
  split
  · exact doneTriple keptTaken fun _ _ => trivial
  · refine sectionTriple
      (fun parts w => Peers.Accepts w thread (sent.map WolfRunService.clusterName) parts.2) keptTaken ?_ fun parts => ?_
    · rintro w value store valid ⟨message, taken, rfl⟩ _ ran
      obtain ⟨rfl, rfl⟩ := ran
      refine ⟨valid.stored rfl fun other => valid.refused _ other, ⟨message, taken, rfl, ?_, ?_⟩⟩
      · intro svc member
        rw [List.partition_eq_filter_filter] at member
        exact List.mem_of_mem_filter member
      · intro svc member wanted
        rw [List.partition_eq_filter_filter]
        apply List.mem_filter.mpr
        refine ⟨member, ?_⟩
        cases contained : (w.stores thread.1).deleted.contains svc.id with
        | true => exact absurd (valid.refused _ _ contained) wanted
        | false => simp [contained]
    · refine sectionTriple (fun _ _ => True) ?_ ?_ fun _ => ?_
      · rintro before after keeps ⟨message, taken, clusters, fewer, all⟩
        refine ⟨message, keeps.taken.trans taken, clusters, fewer, ?_⟩
        exact fun svc member wanted => all svc member fun gone => wanted (keeps.gone _ gone)
      · intro w value store valid accepts uncrossed ran
        obtain rfl := ran
        exact ⟨valid.merge accepts uncrossed rfl rfl, trivial⟩
      · exact saveTriple (.inl rfl) kept (doneTriple kept fun _ holds => holds)

/-! ### With the outside -/

section
variable {pre : Peers ι → Prop} (middle : β → Peers ι → Prop) {post : α → Peers ι → Prop}

theorem outsideTriple {operation : Outside ι β} {next : β → Task ι α}
    (kept : ∀ before after, Peers.Keeps thread before after → pre before → pre after)
    (execute : ∀ w value after, Peers.Valid w → pre w → operation.Answers thread w value after →
      after.Valid ∧ Peers.Promise thread w after ∧ middle value after)
    (rest : ∀ value, (taskRules thread).Triple (middle value) (next value) post) :
    (taskRules thread).Triple pre (.request (.second operation) next) post :=
  Rules.Triple.request (stable_of_keeps kept) execute rest

theorem askTriple {operation : Outside ι β} {next : β → Task ι α}
    (silent : ∀ w value after, operation.Answers thread w value after → after = w)
    (kept : ∀ before after, Peers.Keeps thread before after → pre before → pre after)
    (told : ∀ w value, pre w → operation.Answers thread w value w → middle value w)
    (rest : ∀ value, (taskRules thread).Triple (middle value) (next value) post) :
    (taskRules thread).Triple pre (.request (.second operation) next) post := by
  refine outsideTriple middle kept ?_ rest
  intro w value after valid holds law
  obtain rfl := silent w value after law
  refine ⟨valid, fun _ _ => ⟨.refl _, rfl, rfl⟩, told _ value holds law⟩

theorem askClock {next : Nat → Task ι α}
    (rest : ∀ now, (taskRules thread).Triple (fun w => now ≤ w.clock thread.1) (next now) post) :
    (taskRules thread).Triple (fun _ => True) (.request (.second .unixNow) next) post := by
  apply askTriple fun now (w : Peers ι) => now ≤ w.clock thread.1
  · exact fun _ _ _ law => law.2
  · exact fun _ _ _ holds => holds
  · exact fun _ _ _ law => Nat.le_of_eq law.1
  exact rest

theorem askPast {now : Nat} {operation : Outside ι β} {next : β → Task ι α}
    (silent : ∀ w value after, operation.Answers thread w value after → after = w)
    (rest : ∀ value, (taskRules thread).Triple (fun w => now ≤ w.clock thread.1) (next value) post) :
    (taskRules thread).Triple (fun w => now ≤ w.clock thread.1) (.request (.second operation) next) post := by
  apply askTriple fun _ (w : Peers ι) => now ≤ w.clock thread.1
  · exact silent
  · exact fun _ _ keeps past => Nat.le_trans past (keeps.clock _)
  · exact fun _ _ holds _ => holds
  exact rest

end

theorem createTriple (request : CreateService) :
    (taskRules thread).Triple (fun _ => True) (create request) fun _ _ => True := by
  apply askClock
  intro now
  apply askPast
  · exact fun _ _ _ law => law
  intro uuid
  apply askPast
  · exact fun _ _ _ law => law
  intro serviceIp
  apply Rules.Triple.first
  exact pushedTriple rfl

theorem adoptTriple (request : AdoptService) :
    (taskRules thread).Triple (fun _ => True) (adopt request) fun _ _ => True := by
  apply askTriple fun _ (_ : Peers ι) => True
  · exact fun _ _ _ law => law
  · exact fun _ _ _ holds => holds
  · exact fun _ _ _ _ => trivial
  intro id
  apply askClock
  intro now
  apply askPast
  · exact fun _ _ _ law => law
  intro serviceIp
  apply askPast
  · exact fun _ _ _ law => law
  intro arch
  apply Rules.Triple.first
  exact pushedTriple rfl

theorem syncTriple : (taskRules thread).Triple (fun _ => True) sync fun _ _ => True := by
  refine outsideTriple (fun services w => ∃ message, w.taken thread = some message ∧ message.services = services)
    (fun _ _ _ holds => holds) ?_ fun services => (mergeTriple services).first
  rintro w services after valid _ ⟨message, there, mine, rfl, rfl⟩
  have grows : w.Grows { w with taken := Function.update w.taken thread (some message) } :=
    ⟨fun _ => Nat.le_refl _, fun _ member => member, fun _ member => member, .inr ⟨rfl, rfl⟩⟩
  refine ⟨?_, fun other apart => ⟨grows, rfl, Function.update_of_ne apart _ _⟩, ⟨message, Function.update_self _ _ _, rfl⟩⟩
  apply valid.step grows valid.spread
  · exact fun _ member => .inl member
  · exact fun _ _ member => .inl member
  · exact fun _ member => .inl member
  · exact fun _ _ _ found => .inl found
  · intro other message' found
    by_cases same : other = thread
    · subst other
      simp only [Function.update_self, Option.some.injEq] at found
      exact found ▸ there
    · simp only [Function.update_of_ne same] at found
      exact valid.taken other message' found
  · exact fun _ _ contained => .inl contained

theorem syncDeleteTriple : (taskRules thread).Triple (fun _ => True) syncDelete fun _ _ => True := by
  apply askTriple fun id (w : Peers ι) => w.Gone [id]
  · exact fun _ _ _ law => law.2
  · exact fun _ _ _ holds => holds
  · exact fun _ _ _ law other member => List.mem_singleton.mp member ▸ law.1
  · exact fun id => (removeIfExistsTriple id).first

theorem postAllTriple (services : Services) (peers : List ι) (ids : List String) :
    (taskRules thread).Triple (fun w => w.Gone ids ∧ ∃ mark, w.listed thread = some (mark, services)) (postAll services peers)
      fun refused => Peers.Gone (ids ++ refused) := by
  have kept : ∀ ids before after, Peers.Keeps thread before after →
      (before.Gone ids ∧ ∃ mark, before.listed thread = some (mark, services)) →
        after.Gone ids ∧ ∃ mark, after.listed thread = some (mark, services) := by
    rintro ids before after keeps ⟨gone, mark, listed⟩
    exact ⟨keeps.keepsGone gone, mark, keeps.listed.trans listed⟩
  induction peers generalizing ids with
  | nil =>
    refine Rules.Triple.pure _ (stable_of_keeps (kept ids)) ?_
    intro w _ holds
    rw [List.append_nil]
    exact holds.1
  | cons peer rest ih =>
    refine outsideTriple (fun refused w => w.Gone (ids ++ refused) ∧ ∃ mark, w.listed thread = some (mark, services))
      (kept ids) ?_ fun refused => ?_
    · rintro w refused after valid ⟨gone, mark, listed⟩ ⟨deleted, posted⟩
      have both : w.Gone (ids ++ refused) := by
        intro id member
        rcases List.mem_append.mp member with old | new
        · exact gone id old
        · exact deleted id new
      rcases posted with rfl | rfl
      · have carries := valid.listed thread mark services listed
        have grows : w.Grows { w with posted := w.sent thread peer services :: w.posted } :=
          ⟨fun _ => Nat.le_refl _, fun _ member => member, fun _ member => member, .inr ⟨rfl, rfl⟩⟩
        refine ⟨?_, fun _ _ => ⟨grows, rfl, rfl⟩, both, mark, listed⟩
        apply valid.step grows valid.spread
        · exact fun _ member => .inl member
        · exact fun _ _ member => .inl member
        · intro message member
          rcases List.mem_cons.mp member with rfl | old
          · right
            simpa [Peers.sent, listed] using carries.later grows
          · exact .inl old
        · exact fun _ _ _ found => .inl found
        · exact fun other message found => List.mem_cons_of_mem _ (valid.taken other message found)
        · exact fun _ _ contained => .inl contained
      · exact ⟨valid, fun _ _ => ⟨.refl _, rfl, rfl⟩, both, mark, listed⟩
    · apply Rules.Triple.bind (ih (ids ++ refused))
      intro others
      refine Rules.Triple.pure _ (stable_of_keeps fun _ _ => Peers.Keeps.keepsGone) ?_
      intro w _ gone
      rw [← List.append_assoc]
      exact gone

theorem learnDeletionsTriple (ids : List String) :
    (taskRules thread).Triple (Peers.Gone ids) (learnDeletions ids) fun _ _ => True := by
  induction ids with
  | nil => exact Rules.Triple.pure _ (stable_of_keeps fun _ _ => Peers.Keeps.keepsGone) fun _ _ _ => trivial
  | cons id rest ih =>
    have later : ∀ w : Peers ι, w.Gone (id :: rest) → w.Gone rest := fun _ gone other member => gone other (List.mem_cons_of_mem _ member)
    refine Rules.Triple.request (stable_of_keeps fun _ _ => Peers.Keeps.keepsGone)
      (sectionExecute (fun _ => Peers.Gone (id :: rest)) ?_) fun found => ?_
    · intro w value store valid gone _ ran
      obtain ⟨-, rfl⟩ := ran
      exact ⟨valid.stored rfl fun other => valid.refused _ other, gone⟩
    · cases found with
      | none =>
        apply Rules.Triple.bind (recordTombstoneTriple List.mem_cons_self).first
        exact fun _ => ih.given _ fun w _ => later w
      | some svc =>
        apply Rules.Triple.bind (deleteTriple id (id :: rest)).first
        exact fun _ => ih.given _ fun w _ => later w

theorem broadcastTriple (peers : List ι) :
    (taskRules thread).Triple (fun _ => True) (broadcastToCluster peers) fun _ _ => True := by
  refine Rules.Triple.request (stable_of_keeps fun _ _ _ holds => holds)
    (sectionExecute (fun services w => ∃ mark, w.listed thread = some (mark, services)) ?_) fun services => ?_
  · intro w value store valid _ _ ran
    obtain ⟨rfl, rfl⟩ := ran
    refine ⟨valid.list thread |>.stored rfl fun other => valid.refused _ other, ⟨w.edits, ?_⟩⟩
    exact Function.update_self _ _ _
  · rw [Program.pure_bind]
    split
    · refine Rules.Triple.pure _ (stable_of_keeps ?_) fun _ _ _ => trivial
      rintro before after keeps ⟨mark, listed⟩
      exact ⟨mark, keeps.listed.trans listed⟩
    · apply Rules.Triple.bind ((postAllTriple services peers []).given _ ?_)
      · intro refused
        apply (learnDeletionsTriple _).given
        exact fun w _ gone id member => gone id (List.mem_dedup.mp member)
      · exact fun w _ listed => ⟨fun id member => (by cases member), listed⟩

theorem doesTriple {task : Task ι Unit} (does : Does task) :
    (taskRules thread).Triple (fun _ => True) task fun _ _ => True := by
  have finish : ∀ {γ : Type} {task : Task ι γ}, (taskRules thread).Triple (fun _ => True) task (fun _ _ => True) →
      (taskRules thread).Triple (fun _ => True) (task.bind fun _ => .pure ()) fun _ _ => True := by
    intro γ task triple
    apply triple.bind
    intro value
    exact Rules.Triple.pure _ (stable_of_keeps fun _ _ _ holds => holds) fun _ _ _ => trivial
  cases does with
  | create request => exact finish (createTriple request)
  | adopt request => exact finish (adoptTriple request)
  | scale id replicas => exact finish (editedTriple id fun _ _ => rfl).first
  | updateSettings id settings => exact finish (editedTriple id fun _ _ => rfl).first
  | updateImage id image => exact finish (editedTriple id fun _ _ => rfl).first
  | delete id =>
    apply finish
    apply Rules.Triple.first
    refine ((deleteTriple id []).given _ ?_).weaken_post fun _ _ _ _ => trivial
    exact fun _ _ _ _ member => by cases member
  | broadcast peers => exact broadcastTriple peers
  | sync => exact finish syncTriple
  | syncDelete => exact finish syncDeleteTriple

theorem Peers.Valid.later {w : Peers ι} (valid : w.Valid) {i : ι} {secs : Nat} :
    Peers.Valid { w with clock := Function.update w.clock i (w.clock i + secs) } := by
  apply valid.step
  · refine ⟨fun j => ?_, fun _ member => member, fun _ member => member, .inr ⟨rfl, rfl⟩⟩
    by_cases same : j = i
    · subst j
      simp
    · simp [same]
  · exact valid.spread
  · exact fun _ member => .inl member
  · exact fun _ _ member => .inl member
  · exact fun _ member => .inl member
  · exact fun _ _ _ found => .inl found
  · exact valid.taken
  · exact fun _ _ contained => .inl contained

omit [DecidableEq ι] in
theorem Peers.Fresh.valid {w : Peers ι} (fresh : w.Fresh) : w.Valid := by
  obtain ⟨empty, unposted, unmade, unheard, unlisted, untaken⟩ := fresh
  constructor
  · constructor
    · rintro i fact ⟨-, svc, made, -⟩
      simp [unmade] at made
    · intro i j heard
      simp [Peers.spread, unheard] at heard
  · exact fun _ made => by simp [unmade] at made
  · exact fun i svc member => by simp [Peers.services, (empty i).1] at member
  · exact fun _ posted => by simp [unposted] at posted
  · exact fun _ _ _ listed => by simp [unlisted] at listed
  · exact fun _ _ taken => by simp [untaken] at taken
  · exact fun i _ contained => by simp [(empty i).2, Tombstones.contains] at contained

theorem gossip_sound :
    (@gossipSystem ι _ Peers.Uncrossed).Sound Peers.Fresh Peers.Valid Peers.Promise fun _ _ => True where
  initial w fresh := ⟨fresh.valid, fun _ => trivial⟩
  moves before after valid moved := by
    obtain ⟨i, secs⟩ := moved
    exact ⟨valid.later, fun _ _ => trivial⟩
  others _ _ _ _ _ _ _ _ _ := trivial
  bodies _ _ does := doesTriple does
  stops _ _ _ _ := trivial

/-- In a run whose merges do not cross an edit, once the lists that came after the last
edit have been taken in, every node has the newest version of every service. -/
theorem gossip_brings_newest {w : Peers ι} (reached : (gossipSystem Peers.Uncrossed).Reaches Peers.Fresh w)
    (settled : w.Settled) : w.Newest := by
  have valid := gossip_sound.reaches reached
  intro j origin made wanted
  let versions := (w.made.filter fun other => other.2.id = origin.2.id).toFinset
  have inside : ∀ other, other ∈ versions ↔ other ∈ w.made ∧ other.2.id = origin.2.id := by
    intro other
    simp [versions]
  obtain ⟨best, member, newest⟩ := Finset.exists_max_image versions (fun other => other.2.updatedAt)
    ⟨origin, (inside origin).mpr ⟨made, rfl⟩⟩
  obtain ⟨bestMade, named⟩ := (inside best).mp member
  have authored : w.spread.authored best.1 (origin.2.id, best.2.updatedAt) := ⟨wanted, best.2, bestMade, named, rfl⟩
  obtain ⟨svc, held, same, newer⟩ := valid.spread.settled settled authored j
  obtain ⟨author, svcMade⟩ := valid.held j svc held
  refine ⟨svc, held, same, author, svcMade, ?_⟩
  intro other otherMade alike
  have bound := newest other ((inside other).mpr ⟨otherMade, alike.trans same⟩)
  exact Nat.le_trans bound newer

/-- The outside on a good day: posts arrive, and a node receives the last one for it. -/
def Outside.answer (thread : ι × Nat) (index : Nat) (w : Peers ι) : {β : Type} → Outside ι β → Option (Peers ι × β)
  | _, .unixNow => some (w, w.clock thread.1)
  | _, .newUuid => some (w, String.ofList (List.replicate (index + 1) 'x'))
  | _, .nextWolfnetIp => some (w, none)
  | _, .hostArch => some (w, "amd64")
  | _, .post peer services => some ({ w with posted := w.sent thread peer services :: w.posted }, [])
  | _, .receive => (w.posted.find? fun message => message.target = thread.1).map fun message =>
    ({ w with taken := Function.update w.taken thread (some message) }, message.services)
  | _, .receiveDelete => w.gone.head?.map fun id => (w, id)

def attend (permitted : Peers ι → ι → {β : Type} → Section β → Bool) (thread : ι × Nat) (index : Nat) {β : Type}
    (w : Peers ι) : Joint Section (Outside ι) β → Option (Peers ι × β)
  | .first operation =>
    if permitted w thread.1 operation = true then
      let ran := operation.run (w.clock thread.1) (w.stores thread.1)
      some ((w.noted thread operation).withStore thread.1 ran.1, ran.2)
    else none
  | .second operation => operation.answer thread index w

theorem Outside.answer_answers {thread : ι × Nat} {index : Nat} {w after : Peers ι} {β : Type} {operation : Outside ι β}
    {value : β} (answered : operation.answer thread index w = some (after, value)) :
    operation.Answers thread w value after := by
  cases operation with
  | unixNow => cases answered; exact ⟨rfl, rfl⟩
  | newUuid => cases answered; exact rfl
  | nextWolfnetIp => cases answered; exact rfl
  | hostArch => cases answered; exact rfl
  | post peer services => cases answered; exact ⟨fun _ member => (by cases member), .inl rfl⟩
  | receive =>
    obtain ⟨message, found, same⟩ := Option.map_eq_some_iff.mp answered
    cases same
    have mine := List.find?_some found
    exact ⟨message, List.mem_of_find?_eq_some found, of_decide_eq_true mine, rfl, rfl⟩
  | receiveDelete =>
    obtain ⟨id, found, same⟩ := Option.map_eq_some_iff.mp answered
    cases same
    exact ⟨List.mem_of_head? found, rfl⟩

theorem attend_commits {permitted : Peers ι → ι → {β : Type} → Section β → Bool}
    {allowed : Peers ι → ι → {β : Type} → Section β → Prop}
    (checked : ∀ w i {β : Type} (operation : Section β), permitted w i operation = true → allowed w i operation)
    (thread : ι × Nat) (index : Nat) {β : Type} (w : Peers ι) (operation : Joint Section (Outside ι) β) (after : Peers ι)
    (value : β) (attended : attend permitted thread index w operation = some (after, value)) :
    (gossipSystem allowed).commits thread w operation value after := by
  cases operation with
  | first operation =>
    simp only [attend] at attended
    split at attended
    · rename_i may
      cases attended
      exact ⟨checked _ _ _ may, _, Section.run_runs _ _ operation, rfl⟩
    · cases attended
  | second operation => exact Outside.answer_answers attended

def samplePeers : Peers Bool where
  stores _ := { services := [], deleted := [], servicesJson := none, deletedJson := none }
  clock _ := 1000
  posted := []
  edits := 0
  made := []
  gone := []
  heard _ _ := false
  listed _ := none
  taken _ := none

def adoption (name : String) : Task Bool Unit :=
  (adopt ⟨name, name, "node", "nginx", .docker, "c1", [], [], []⟩).bind fun _ => .pure ()

def receiving : Task Bool Unit := sync.bind fun _ => .pure ()

abbrev PeerTurn := Turn (Peers Bool) (Joint Section (Outside Bool)) (Bool × Nat) Unit

def inTurn : List PeerTurn :=
  Turn.whole (true, 0) (adoption "web") 6 ++ Turn.whole (true, 0) (broadcastToCluster [false]) 2 ++
  Turn.whole (false, 0) receiving 4 ++ Turn.whole (false, 0) (adoption "db") 6 ++
  Turn.whole (false, 0) (broadcastToCluster [true]) 2 ++ Turn.whole (true, 0) receiving 4 ++
  Turn.whole (true, 0) (broadcastToCluster [false]) 2 ++ Turn.whole (false, 0) receiving 4

def crossing : List PeerTurn :=
  Turn.whole (true, 0) (adoption "web") 6 ++ Turn.whole (true, 0) (broadcastToCluster [false]) 2 ++
  Turn.whole (false, 0) (adoption "db") 6 ++ Turn.whole (false, 0) receiving 4 ++
  Turn.whole (false, 0) (broadcastToCluster [true]) 2 ++ Turn.whole (true, 0) receiving 4 ++
  Turn.whole (true, 0) (broadcastToCluster [false]) 2 ++ Turn.whole (false, 0) receiving 4

private theorem inTurn_lawful (permitted : Peers Bool → Bool → {β : Type} → Section β → Prop) :
    ∀ turn ∈ inTurn, turn.Lawful (gossipSystem permitted) := by
  simp [inTurn, Turn.whole, Turn.Lawful, gossipSystem, adoption, receiving, Does.adopt, Does.sync, Does.broadcast]

private theorem crossing_lawful (permitted : Peers Bool → Bool → {β : Type} → Section β → Prop) :
    ∀ turn ∈ crossing, turn.Lawful (gossipSystem permitted) := by
  simp [crossing, Turn.whole, Turn.Lawful, gossipSystem, adoption, receiving, Does.adopt, Does.sync, Does.broadcast]

theorem samplePeers_fresh : samplePeers.Fresh :=
  ⟨fun _ => ⟨rfl, rfl⟩, rfl, rfl, fun _ _ => rfl, fun _ => rfl, fun _ => rfl⟩

instance (w : Peers Bool) : Decidable w.Settled := inferInstanceAs (Decidable (∀ i j, i ≠ j → w.heard i j = true))

theorem gossip_brings_newest_sample : ∃ w : Peers Bool, (gossipSystem Peers.Uncrossed).Reaches Peers.Fresh w ∧
    (w.Settled ∧ w.made.length = 2) ∧ w.Newest := by
  obtain ⟨w, reached, passed⟩ := @conduct_reaches _ _ _ _ _ (gossipSystem Peers.Uncrossed)
    (attend fun w i _ operation => decide (w.Uncrossed i operation)) Peers.Fresh _ samplePeers_fresh
    (attend_commits fun w i _ operation may => of_decide_eq_true may) inTurn (inTurn_lawful _)
    (fun w => decide (w.Settled ∧ w.made.length = 2)) (by decide +kernel)
  have settled := of_decide_eq_true passed
  exact ⟨w, reached, settled, gossip_brings_newest reached settled.1⟩

/-- The list that left earlier removes what was adopted since, and then so do all others. -/
theorem adopted_service_erased : ∃ w : Peers Bool, (gossipSystem Whenever).Reaches Peers.Fresh w ∧
    w.Settled ∧ ¬w.Newest := by
  obtain ⟨w, reached, passed⟩ := @conduct_reaches _ _ _ _ _ (gossipSystem Whenever)
    (attend fun _ _ _ _ => true) Peers.Fresh _ samplePeers_fresh (attend_commits fun _ _ _ _ _ => trivial) crossing
    (crossing_lawful _)
    (fun w => decide (w.Settled ∧ ∃ origin ∈ w.made, origin.2.id ∉ w.gone ∧ ∀ svc ∈ w.services true, svc.id ≠ origin.2.id))
    (by decide +kernel)
  obtain ⟨settled, origin, made, wanted, lost⟩ := of_decide_eq_true passed
  refine ⟨w, reached, settled, fun newest => ?_⟩
  obtain ⟨svc, held, same, -⟩ := newest true origin made wanted
  exact lost svc held same

end WolfRun
