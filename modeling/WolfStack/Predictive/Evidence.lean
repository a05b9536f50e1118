import WolfStack.Predictive.Tick

/-! Is a finding closed on newer evidence only? What a tick has sampled, what it takes to be
suppressed and what it closes belong to three moments, and another tick or the operator may
come in between. -/

namespace Predictive
open Effects ProposalStore
open Effects.Program (send)

/-- A finding that a tick has closed as cleared: when it had last been raised, when the tick
began to sample, and whether its samples show it. -/
structure Closing where
  key : Key
  raised : Nat
  began : Nat
  found : Bool
deriving DecidableEq, Repr

/-- The inbox with what has been done to it so far, in numbered steps: when a finding was last
raised, when a tick last reported it or the operator restored it, when a tick began to sample. -/
structure Docket where
  inbox : Inbox
  count : Nat
  raised : Key → Nat
  touched : Key → Nat
  began : Nat → Nat
  closings : List Closing

def Section.reports : {β : Type} → Section β → List Key
  | _, .close round => round.emitted
  | _, _ => []

/-- Raised: it waits, and did not before or has been reported once more. -/
def Raises (before : Inbox) {β : Type} (operation : Section β) (after : Inbox) (key : Key) : Prop :=
  Pending after.proposals key ∧ (¬Pending before.proposals key ∨ key ∈ operation.reports)

instance (before : Inbox) {β : Type} (operation : Section β) (after : Inbox) (key : Key) :
    Decidable (Raises before operation after key) :=
  inferInstanceAs (Decidable (_ ∧ _))

/-- A tick's window reports the finding, or the operator restores its entry. -/
def Section.touches (store : ProposalStore) : {β : Type} → Section β → Key → Bool
  | _, .close round, key => key ∈ round.emitted
  | _, .operate (.restore id), key => (store.get id).any fun p => p.dedupKey = key
  | _, _, _ => false

def Proposal.isCleared (p : Proposal) : Bool :=
  match p.status with
  | .approved _ .conditionCleared => true
  | _ => false

def clearedKeys (before after : ProposalStore) : List Key :=
  (before.filter fun p => p.isPending && after.any fun q => q.dedupKey = p.dedupKey && q.isCleared).map Proposal.dedupKey

def Samples.shows (samples : Samples) (key : Key) : Bool := samples.found.any fun f => (f.2.findingType, f.2.scope) = key

def Docket.closed (d : Docket) (task : Nat) (after : Inbox) : {β : Type} → Section β → List Closing
  | _, .close round => (clearedKeys d.inbox.proposals after.proposals).map fun key =>
      ⟨key, d.raised key, d.began task, round.samples.shows key⟩
  | _, _ => []

def Section.begins : {β : Type} → Section β → Bool
  | _, .sample => true
  | _, _ => false

def Docket.record (d : Docket) (task : Nat) {β : Type} (operation : Section β) (after : Inbox) : Docket where
  inbox := after
  count := d.count + 1
  raised key := if Raises d.inbox operation after key then d.count else d.raised key
  touched key := if operation.touches d.inbox.proposals key then d.count else d.touched key
  began := if operation.begins then Function.update d.began task d.count else d.began
  closings := d.closed task after operation ++ d.closings

/-- Between the sampling of a tick and its window nobody else reports or restores what waits and
the tick has looked at without reporting it; and no acknowledgement that the tick goes by
covers such a finding if its samples show it. -/
def Docket.Alone (d : Docket) (task : Nat) : {β : Type} → Section β → Prop
  | _, .close round => ∀ key, Pending d.inbox.proposals key → key ∈ round.covered → key ∉ round.emitted →
      d.touched key < d.began task ∧
        (round.samples.shows key = true → round.acks.suppresses round.analysedAt key.1 key.2 = false)
  | _, _ => True

def docketSystem (format : Time → String) (nodeId : String) (permitted : Docket → Nat → {β : Type} → Section β → Prop) :
    System Docket Section Nat Unit where
  moves before after := ∃ now, before.inbox.now ≤ now ∧ after = { before with inbox := { before.inbox with now := now } }
  bodies _ := { program | Task nodeId program }
  commits task _ before operation value after := permitted before task operation ∧ ∃ inbox,
    operation.Runs format before.inbox value inbox ∧ after = before.record task operation inbox
  stops _ _ := True

def Docket.New (d : Docket) : Prop :=
  Single d.inbox.proposals ∧ d.count = 1 ∧ (∀ key, d.raised key = 0) ∧ (∀ key, d.touched key = 0) ∧ (∀ task, d.began task = 0) ∧ d.closings = []

/-- Every finding that was closed had been raised before the tick sampled, and the samples do
not show it. -/
def Docket.Backed (d : Docket) : Prop := ∀ c ∈ d.closings, c.raised < c.began ∧ c.found = false

structure Docket.Sound (d : Docket) : Prop where
  single : Single d.inbox.proposals
  began : ∀ task, d.began task ≤ d.count
  raised : ∀ key, d.raised key ≤ d.touched key
  touched : ∀ key, d.touched key ≤ d.count
  backed : d.Backed

/-- For the other tasks: what waits now and did not before has been raised just now. -/
def docketPromise (task : Nat) (before after : Docket) : Prop :=
  (∀ other, other ≠ task → after.began other = before.began other) ∧
    ∀ key, Pending after.inbox.proposals key →
      before.count ≤ after.raised key ∨ (Pending before.inbox.proposals key ∧ after.raised key = before.raised key)

abbrev docketRules (format : Time → String) (nodeId : String) (task : Nat) : Rules Docket Section :=
  (docketSystem format nodeId Docket.Alone).rules Docket.Sound docketPromise task

variable {format : Time → String} {nodeId : String} {task : Nat} {before after : Docket}

/-- What is not raised again after the tick began to sample waited when the tick read the inbox. -/
def Remembers (task : Nat) (snapshot : ProposalStore) (d : Docket) : Prop :=
  Single snapshot ∧ ∀ key, d.raised key < d.began task → Pending d.inbox.proposals key → Pending snapshot key

theorem record_promise {β : Type} (operation : Section β) (inbox : Inbox) :
    docketPromise task before (before.record task operation inbox) := by
  constructor
  · intro other apart
    unfold Docket.record
    dsimp only
    split
    · exact Function.update_of_ne apart _ _
    · rfl
  · intro key pending
    unfold Docket.record
    dsimp only
    split
    · exact .inl (Nat.le_refl _)
    · rename_i quiet
      refine .inr ⟨?_, rfl⟩
      by_contra fresh
      exact quiet ⟨pending, .inl fresh⟩

theorem remembers_kept {snapshot : ProposalStore} (sound : before.Sound) (same : after.began task = before.began task)
    (promise : ∀ key, Pending after.inbox.proposals key →
      before.count ≤ after.raised key ∨ (Pending before.inbox.proposals key ∧ after.raised key = before.raised key))
    (remembers : Remembers task snapshot before) : Remembers task snapshot after := by
  refine ⟨remembers.1, ?_⟩
  intro key early pending
  rw [same] at early
  rcases promise key pending with late | ⟨waited, unraised⟩
  · have bound := sound.began task
    omega
  · rw [unraised] at early
    exact remembers.2 key early waited

theorem remembers_stable (snapshot : ProposalStore) : (docketRules format nodeId task).Stable (Remembers task snapshot) := by
  rintro before after sound _ (⟨now, -, rfl⟩ | ⟨other, apart, began, promise⟩) remembers
  · exact remembers
  · exact remembers_kept sound (began task apart.symm) promise remembers

theorem mem_closed {inbox : Inbox} {round : Round} {c : Closing} (member : c ∈ before.closed task inbox (.close round)) :
    ∃ p ∈ before.inbox.proposals, p.isPending = true ∧ (∃ q ∈ inbox.proposals, q.dedupKey = p.dedupKey ∧ q.isCleared = true) ∧
      c = ⟨p.dedupKey, before.raised p.dedupKey, before.began task, round.samples.shows p.dedupKey⟩ := by
  obtain ⟨key, cleared, rfl⟩ := List.mem_map.mp member
  obtain ⟨p, kept, rfl⟩ := List.mem_map.mp cleared
  obtain ⟨here, both⟩ := List.mem_filter.mp kept
  simp only [Bool.and_eq_true, List.any_eq_true, decide_eq_true_eq] at both
  exact ⟨p, here, both.1, both.2, rfl⟩

theorem isCleared_iff {p : Proposal} : p.isCleared = true ↔ ∃ at_, p.status = .approved at_ .conditionCleared := by
  unfold Proposal.isCleared
  split
  · rename_i at_ status
    exact ⟨fun _ => ⟨at_, status⟩, fun _ => rfl⟩
  · rename_i other
    exact ⟨fun no => absurd no Bool.false_ne_true, fun ⟨at_, status⟩ => absurd status (other at_)⟩

theorem found_suppressed {round : Round} {key : Key} (shown : round.samples.shows key = true) (unreported : key ∉ round.emitted) :
    round.acks.suppresses round.analysedAt key.1 key.2 = true ∨ round.proposals.isSuppressed round.analysedAt key.1 key.2 = true := by
  obtain ⟨f, member, named⟩ := List.any_eq_true.mp shown
  obtain rfl := of_decide_eq_true named
  by_contra none
  push Not at none
  apply unreported
  refine List.mem_map.mpr ⟨newRule f.1 round.analysedAt f.2, List.mem_map.mpr ⟨f, List.mem_filter.mpr ⟨member, ?_⟩, rfl⟩, rfl⟩
  simp [Round.wanted, none.1, none.2]

theorem pending_unsuppressed {store : ProposalStore} (single : Single store) {key : Key} (pending : Pending store key) (now : Time) :
    store.isSuppressed now key.1 key.2 = false := by
  by_contra suppressed
  have suppressed : store.isSuppressed now key.1 key.2 = true := by simpa using suppressed
  obtain ⟨p, member, named, stands⟩ := (isSuppressed_iff now key).mp suppressed
  have waits := pending.entry single member named
  rw [standing_decided stands] at waits
  exact absurd waits Bool.false_ne_true

/-- Only a report and a restoring make a finding wait. -/
theorem raises_touches {before after : Inbox} {β : Type} {operation : Section β} {value : β} {key : Key}
    (runs : operation.Runs format before value after) (raises : Raises before operation after key) :
    operation.touches before.proposals key = true := by
  obtain ⟨⟨p, member, named, waits⟩, fresh⟩ := raises
  obtain ⟨samples, ran⟩ := runs
  have known (there : p ∈ before.proposals) (reports : key ∈ operation.reports → operation.touches before.proposals key = true) :
      operation.touches before.proposals key = true :=
    fresh.elim (fun new => absurd ⟨p, there, named, waits⟩ new) reports
  cases operation with
  | sweep nodeId =>
    cases ran
    exact known (List.mem_filter.mp (waits_resolve member waits)).1 fun none => absurd none List.not_mem_nil
  | close round =>
    cases ran
    rcases waits_closing member waits with ⟨old, there, same, waited, -⟩ | ⟨q, reported, same, -⟩
    · rcases fresh with new | reported
      · exact absurd ⟨old, there, same.trans named, waited⟩ new
      · exact decide_eq_true reported
    · exact decide_eq_true (List.mem_map.mpr ⟨q, reported, same.trans named⟩)
  | operate decision =>
    cases ran
    cases decision with
    | restore id =>
      rcases waits_restore member with there | ⟨old, found, rfl⟩
      · exact known there fun none => absurd none List.not_mem_nil
      · exact (Option.any_eq_true _ _).mpr ⟨old, found, decide_eq_true named⟩
    | _ => exact known (waits_settle (by simp) member waits) fun none => absurd none List.not_mem_nil
  | _ =>
    cases ran
    exact known member fun none => absurd none List.not_mem_nil

theorem record_sound {β : Type} {operation : Section β} {value : β} {inbox : Inbox} (sound : before.Sound)
    (runs : operation.Runs format before.inbox value inbox)
    (backed : ∀ c ∈ before.closed task inbox operation, c.raised < c.began ∧ c.found = false) :
    (before.record task operation inbox).Sound := by
  refine ⟨runs.single sound.single, ?_, ?_, ?_, ?_⟩
  · intro other
    have bound := sound.began other
    unfold Docket.record
    dsimp only
    split
    · by_cases same : other = task
      · rw [same, Function.update_self]
        omega
      · rw [Function.update_of_ne same]
        omega
    · omega
  · intro key
    have early := sound.raised key
    have bound := sound.touched key
    unfold Docket.record
    dsimp only
    split
    · rename_i raises
      rw [if_pos (raises_touches runs raises)]
    · split <;> omega
  · intro key
    have bound := sound.touched key
    unfold Docket.record
    dsimp only
    split <;> omega
  · intro c member
    rcases List.mem_append.mp member with new | old
    · exact backed c new
    · exact sound.backed c old

theorem open_sound {β : Type} {operation : Section β} {value : β} (sound : before.Sound)
    (opens : ∀ inbox, before.closed task inbox operation = [])
    (law : before.Alone task operation ∧ ∃ inbox, operation.Runs format before.inbox value inbox ∧
      after = before.record task operation inbox) :
    after.Sound ∧ docketPromise task before after := by
  obtain ⟨-, inbox, runs, rfl⟩ := law
  refine ⟨record_sound sound runs ?_, record_promise operation inbox⟩
  intro c member
  rw [opens inbox] at member
  exact absurd member List.not_mem_nil

theorem close_backed {round : Round} {inbox : Inbox} {alerts : List Proposal} (sound : before.Sound)
    (remembers : Remembers task round.proposals before) (alone : before.Alone task (.close round))
    (runs : (Section.close round).Runs format before.inbox alerts inbox) :
    ∀ c ∈ before.closed task inbox (.close round), c.raised < c.began ∧ c.found = false := by
  intro c member
  obtain ⟨p, here, waits, ⟨q, there, named, closed⟩, rfl⟩ := mem_closed member
  obtain ⟨at_, status⟩ := isCleared_iff.mp closed
  have pending : Pending before.inbox.proposals p.dedupKey := ⟨p, here, rfl, waits⟩
  obtain ⟨samples, ran⟩ := runs
  cases ran
  obtain ⟨looked, unreported⟩ := cleared_of_closing sound.single pending there named status
  obtain ⟨untouched, unacked⟩ := alone p.dedupKey pending looked unreported
  have early : before.raised p.dedupKey < before.began task := Nat.lt_of_le_of_lt (sound.raised _) untouched
  refine ⟨early, Bool.eq_false_iff.mpr fun shown => ?_⟩
  rcases found_suppressed shown unreported with acknowledged | suppressed
  · rw [unacked shown] at acknowledged
    cases acknowledged
  · -- It waited when the inbox was read, so nothing in the inbox suppressed it.
    have waited := remembers.2 p.dedupKey early pending
    rw [pending_unsuppressed remembers.1 waited] at suppressed
    exact absurd suppressed Bool.false_ne_true

theorem keepsSnapshot {β : Type} {operation : Section β} {snapshot : ProposalStore} (sound : before.Sound)
    (remembers : Remembers task snapshot before) (resting : operation.begins = false) (inbox : Inbox) :
    Remembers task snapshot (before.record task operation inbox) := by
  apply remembers_kept sound ?_ (record_promise operation inbox).2 remembers
  unfold Docket.record
  rw [resting]
  rfl

theorem taskTriple {program : Program Section Unit} (body : Task nodeId program) :
    (docketRules format nodeId task).Triple (fun _ => True) program fun _ _ => True := by
  have execute (before : Docket) {β : Type} (operation : Section β) (value : β) (after : Docket) (sound : before.Sound)
      (opens : operation.closes = false) (law : (docketRules format nodeId task).commits before operation value after) :
      after.Sound ∧ docketPromise task before after :=
    open_sound sound (fun inbox => by cases operation <;> first | rfl | cases opens) law
  refine body.triple execute (tick_triple remembers_stable execute ?_ ?_ ?_)
  · rintro before snapshot after sound ⟨-, inbox, ⟨samples, ran⟩, rfl⟩
    cases ran
    exact keepsSnapshot sound ⟨sound.single, fun _ _ pending => pending⟩ rfl _
  · rintro before now after snapshot sound remembers ⟨-, inbox, -, rfl⟩
    exact keepsSnapshot sound remembers rfl inbox
  · rintro before round alerts after sound remembers ⟨alone, inbox, runs, rfl⟩
    exact ⟨record_sound sound runs (close_backed sound remembers alone runs), record_promise _ inbox⟩

/-- In a run in which nobody comes between a tick's samples and its window with what it has looked
at, and no acknowledgement hides what its samples show, whatever is closed as cleared had not been
raised since the tick sampled, and its samples do not show it. -/
theorem closed_on_newer_evidence (format : Time → String) (nodeId : String) {d : Docket}
    (reached : (docketSystem format nodeId Docket.Alone).Reaches Docket.New d) : d.Backed := by
  have sound : (docketSystem format nodeId Docket.Alone).Sound Docket.New Docket.Sound docketPromise fun _ _ => True := by
    constructor
    · intro d new
      obtain ⟨single, count, raised, touched, began, none⟩ := new
      refine ⟨⟨single, fun task => by rw [began task]; exact Nat.zero_le _, fun key => by rw [raised key]; exact Nat.zero_le _,
        fun key => by rw [touched key]; exact Nat.zero_le _, fun c member => ?_⟩, fun _ => trivial⟩
      rw [none] at member
      exact absurd member List.not_mem_nil
    · rintro before after sound ⟨now, -, rfl⟩
      exact ⟨⟨sound.single, sound.began, sound.raised, sound.touched, sound.backed⟩, fun _ _ => trivial⟩
    · exact fun _ _ _ _ _ _ _ _ _ => trivial
    · exact fun task program body => taskTriple body
    · exact fun _ _ _ _ => trivial
  exact (sound.reaches reached).backed

def Docket.serve (script : Nat → Samples) (allowed : Docket → Nat → {β : Type} → Section β → Bool) (task : Nat) (_ : Nat) {β : Type}
    (d : Docket) (operation : Section β) : Option (Docket × β) :=
  if allowed d task operation = true then
    let ran := operation.run (fun _ => "") (script task) d.inbox
    some (d.record task operation ran.1, ran.2)
  else none

theorem docket_commits {script : Nat → Samples} {allowed : Docket → Nat → {β : Type} → Section β → Bool}
    {permitted : Docket → Nat → {β : Type} → Section β → Prop}
    (checked : ∀ d task {β : Type} (operation : Section β), allowed d task operation = true → permitted d task operation)
    (task : Nat) (index : Nat) {β : Type} (d : Docket) (operation : Section β) (after : Docket) (value : β)
    (served : Docket.serve script allowed task index d operation = some (after, value)) :
    (docketSystem (fun _ => "") nodeId permitted).commits task d operation value after := by
  simp only [Docket.serve] at served
  split at served
  · rename_i may
    cases served
    exact ⟨checked d task operation may, _, ⟨script task, rfl⟩, rfl⟩
  · cases served

def closable (d : Docket) (task : Nat) : {β : Type} → Section β → Bool
  | _, .close round => d.inbox.proposals.all fun p => !p.isPending || p.dedupKey ∉ round.covered || p.dedupKey ∈ round.emitted ||
      (d.touched p.dedupKey < d.began task && (!round.samples.shows p.dedupKey ||
        !round.acks.suppresses round.analysedAt p.dedupKey.1 p.dedupKey.2))
  | _, _ => true

theorem closable_alone (d : Docket) (task : Nat) {β : Type} (operation : Section β) (may : closable d task operation = true) :
    d.Alone task operation := by
  cases operation with
  | close round =>
    rintro key ⟨p, member, rfl, waits⟩ looked unreported
    have one := List.all_eq_true.mp may p member
    simp only [waits, looked, unreported, not_true, decide_false, Bool.not_true, Bool.false_or,
      Bool.and_eq_true, decide_eq_true_eq, Bool.or_eq_true, Bool.not_eq_true'] at one
    exact ⟨one.1, fun shown => one.2.resolve_left (by simp [shown])⟩
  | _ => trivial

def sampleKey : Key := ("disk_fill_eta", ⟨"n1", some "/var"⟩)

/-- The first task finds the disk in order, the others do not. -/
def diskSamples (task : Nat) : Samples where
  usable := true
  found := if task = 0 then [] else [("p1", sampleFinding .warn)]
  covered := [sampleKey]
  coveredFrom _ := []
  listed := []

def newDocket : Docket := ⟨⟨[], [], 1000⟩, 1, fun _ => 0, fun _ => 0, fun _ => 0, []⟩

theorem newDocket_new : newDocket.New := ⟨List.nodup_nil, rfl, fun _ => rfl, fun _ => rfl, fun _ => rfl, rfl⟩

abbrev DocketTurn := Turn Docket Section Nat Unit

def raisedThenClosed : List DocketTurn := Turn.whole 1 (tick "n1") 7 ++ Turn.whole 0 (tick "n1") 7

def raisedMeanwhile : List DocketTurn :=
  [.start 0 (tick "n1"), .advance 0 1] ++ Turn.whole 1 (tick "n1") 7 ++ [.advance 0 6, .finish 0]

theorem closed_on_newer_evidence_sample : ∃ d, (docketSystem (fun _ => "") "n1" Docket.Alone).Reaches Docket.New d ∧
    d.closings = [⟨sampleKey, 7, 8, false⟩] ∧ d.Backed := by
  obtain ⟨d, reached, passed⟩ := @conduct_reaches _ _ _ _ _ (docketSystem (fun _ => "") "n1" Docket.Alone)
    (Docket.serve diskSamples closable) Docket.New newDocket newDocket_new (docket_commits closable_alone) raisedThenClosed
    (by simp [raisedThenClosed, Turn.whole, Turn.Lawful, docketSystem, Task.tick])
    (fun d => decide (d.closings = [⟨sampleKey, 7, 8, false⟩])) (by decide +kernel)
  exact ⟨d, reached, of_decide_eq_true passed, closed_on_newer_evidence _ _ reached⟩

/-- A tick closes what was found after it had sampled. -/
theorem closed_on_older_evidence : ∃ d, (docketSystem (fun _ => "") "n1" fun _ _ _ _ => True).Reaches Docket.New d ∧ ¬d.Backed := by
  obtain ⟨d, reached, passed⟩ := @conduct_reaches _ _ _ _ _ (docketSystem (fun _ => "") "n1" fun _ _ _ _ => True)
    (Docket.serve diskSamples fun _ _ _ _ => true) Docket.New newDocket newDocket_new (docket_commits fun _ _ _ _ _ => trivial)
    raisedMeanwhile (by simp [raisedMeanwhile, Turn.whole, Turn.Lawful, docketSystem, Task.tick])
    (fun d => decide (d.closings = [⟨sampleKey, 8, 1, false⟩])) (by decide +kernel)
  refine ⟨d, reached, fun backed => ?_⟩
  have closings := of_decide_eq_true passed
  have early := (backed ⟨sampleKey, 8, 1, false⟩ (by rw [closings]; exact List.mem_cons_self)).1
  exact absurd early (by decide)

end Predictive
