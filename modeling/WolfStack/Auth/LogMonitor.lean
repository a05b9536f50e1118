import WolfStack.Auth.LogLines
import WolfStack.Auth.LoginLimiter
import Mathlib.Data.Finset.Card

/-! How often a failed login is counted, after `auth/log_monitor.rs`: the lines of one
address that bear one label within two seconds are taken for one failure. -/

namespace Auth

/-- The times at which a line of an address and a label was last counted, and the
addresses for which `record_failure_with` was called. -/
structure LogMonitor where
  dedup : List ((List Char × String) × Nat)
  failures : List (List Char)

namespace LogMonitor

def merged (m : LogMonitor) (key : List Char × String) (now : Nat) : Bool :=
  match m.dedup.lookup key with
  | some last => now - last < 2 * nanos
  | none => false

def handleFailure (m : LogMonitor) (now : Nat) (f : Failure) : LogMonitor :=
  if m.merged (f.ip, f.source) now then m
  else
    let map := ((f.ip, f.source), now) :: m.dedup.filter fun known => known.1 ≠ (f.ip, f.source)
    ⟨if 4096 < map.length then map.filter fun known => now < known.2 + 60 * nanos else map, m.failures ++ [f.ip]⟩

end LogMonitor

structure Event where
  time : Nat
  attempt : Nat
  text : List Char

def LogMonitor.read (m : LogMonitor) (e : Event) : LogMonitor :=
  match parseFailure e.text with
  | some f => m.handleFailure e.time f
  | none => m

def watch (events : List Event) : LogMonitor := events.foldl LogMonitor.read ⟨[], []⟩

def recorded (before : List Event) (e : Event) : Option Failure :=
  (parseFailure e.text).filter fun f => !(watch before).merged (f.ip, f.source) e.time

theorem watch_concat (before : List Event) (e : Event) : watch (before ++ [e]) = (watch before).read e := by
  rw [watch, List.foldl_append]
  rfl

theorem recorded_some_iff {before : List Event} {e : Event} {f : Failure} :
    recorded before e = some f ↔ parseFailure e.text = some f ∧ (watch before).merged (f.ip, f.source) e.time = false := by
  rw [recorded, Option.filter_eq_some_iff]
  simp

theorem read_unrecorded {before : List Event} {e : Event} (silent : recorded before e = none) : (watch before).read e = watch before := by
  unfold LogMonitor.read
  cases found : parseFailure e.text with
  | none => rfl
  | some f =>
    rw [recorded, found, Option.filter_eq_none_iff] at silent
    have seen : (watch before).merged (f.ip, f.source) e.time = true := by simpa using silent f rfl
    exact if_pos seen

theorem failures_concat (before : List Event) (e : Event) :
    (watch (before ++ [e])).failures = (watch before).failures ++ (recorded before e).toList.map Failure.ip := by
  rw [watch_concat]
  cases counts : recorded before e with
  | none => rw [read_unrecorded counts, Option.toList_none, List.map_nil, List.append_nil]
  | some f =>
    obtain ⟨found, fresh⟩ := recorded_some_iff.mp counts
    rw [LogMonitor.read, found]
    dsimp only
    rw [LogMonitor.handleFailure, if_neg (by simp [fresh])]
    rfl

def CountedAt (before : List Event) (key : List Char × String) (time : Nat) : Prop :=
  ∃ front d back f, before = front ++ d :: back ∧ recorded front d = some f ∧ key = (f.ip, f.source) ∧ time = d.time

/-- What the map holds: times at which something counted, and each of these times unless
a later one took its place or a minute has passed. -/
structure Tracks (before : List Event) : Prop where
  unique : ((watch before).dedup.map Prod.fst).Nodup
  sound : ∀ known ∈ (watch before).dedup, CountedAt before known.1 known.2
  kept : ∀ key time, CountedAt before key time →
    (∃ last, (key, last) ∈ (watch before).dedup ∧ time ≤ last) ∨ ∃ e ∈ before, time + 60 * nanos ≤ e.time

theorem countedAt_concat {before : List Event} {e : Event} {key : List Char × String} {time : Nat} :
    CountedAt (before ++ [e]) key time ↔ CountedAt before key time ∨
      ∃ f, recorded before e = some f ∧ key = (f.ip, f.source) ∧ time = e.time := by
  constructor
  · rintro ⟨front, d, back, f, shape, counts, rfl, rfl⟩
    obtain rfl | ⟨back, last, rfl⟩ := List.eq_nil_or_concat back
    · obtain ⟨rfl, rfl⟩ := List.append_singleton_inj.mp shape
      exact .inr ⟨f, counts, rfl, rfl⟩
    · rw [List.concat_eq_append, ← List.cons_append, ← List.append_assoc] at shape
      exact .inl ⟨front, d, back, f, (List.append_singleton_inj.mp shape).1, counts, rfl, rfl⟩
  · rintro (⟨front, d, back, f, rfl, counts, rfl, rfl⟩ | ⟨f, counts, rfl, rfl⟩)
    · exact ⟨front, d, back ++ [e], f, by simp, counts, rfl, rfl⟩
    · exact ⟨before, e, [], f, rfl, counts, rfl, rfl⟩

def Ordered (events : List Event) : Prop := events.Pairwise fun d e => d.time ≤ e.time

/-- The map after a line that counted: the old times of its key give way, and of more than
4096 entries those that are a minute old. -/
theorem dedup_recorded {before : List Event} {e : Event} {f : Failure} (counts : recorded before e = some f) :
    ∃ map, map = ((f.ip, f.source), e.time) :: ((watch before).dedup.filter fun known => known.1 ≠ (f.ip, f.source)) ∧
      (watch (before ++ [e])).dedup.Sublist map ∧ ∀ known ∈ map, e.time < known.2 + 60 * nanos → known ∈ (watch (before ++ [e])).dedup := by
  obtain ⟨found, fresh⟩ := recorded_some_iff.mp counts
  refine ⟨_, rfl, ?_⟩
  rw [watch_concat, LogMonitor.read, found]
  dsimp only
  rw [LogMonitor.handleFailure, if_neg (by simp [fresh])]
  dsimp only
  split
  · exact ⟨List.filter_sublist, fun known member young => List.mem_filter.mpr ⟨member, decide_eq_true young⟩⟩
  · exact ⟨.refl _, fun known member _ => member⟩

theorem tracks {events : List Event} (ordered : Ordered events) : Tracks events := by
  induction events using List.reverseRecOn with
  | nil =>
    refine ⟨List.nodup_nil, by simp [watch], ?_⟩
    rintro key time ⟨front, d, back, f, shape, -⟩
    simp at shape
  | append_singleton before e ih =>
    have earlier : ∀ d ∈ before, d.time ≤ e.time := fun d member => (List.pairwise_append.mp ordered).2.2 d member e List.mem_cons_self
    obtain ⟨unique, sound, kept⟩ := ih (List.pairwise_append.mp ordered).1
    cases counts : recorded before e with
    | none =>
      have same : watch (before ++ [e]) = watch before := by rw [watch_concat, read_unrecorded counts]
      have still : ∀ key time, CountedAt (before ++ [e]) key time ↔ CountedAt before key time := by
        intro key time
        rw [countedAt_concat, counts]
        simp
      refine ⟨same ▸ unique, ?_, ?_⟩
      · intro known member
        rw [same] at member
        exact (still _ _).mpr (sound known member)
      · intro key time counted
        rw [same]
        obtain held | ⟨d, member, passed⟩ := kept key time ((still _ _).mp counted)
        · exact .inl held
        · exact .inr ⟨d, List.mem_append_left _ member, passed⟩
    | some f =>
      obtain ⟨map, shape, whole⟩ := dedup_recorded counts
      have members : ∀ known ∈ map, known = ((f.ip, f.source), e.time) ∨ known ∈ (watch before).dedup := by
        intro known member
        rw [shape] at member
        exact (List.mem_cons.mp member).imp id fun old => (List.mem_filter.mp old).1
      refine ⟨?_, ?_, ?_⟩
      · have distinct : (map.map Prod.fst).Nodup := by
          rw [shape, List.map_cons, List.nodup_cons]
          refine ⟨?_, (List.filter_sublist.map Prod.fst).nodup unique⟩
          intro again
          obtain ⟨known, member, same⟩ := List.mem_map.mp again
          exact of_decide_eq_true (List.mem_filter.mp member).2 same
        exact (whole.1.map Prod.fst).nodup distinct
      · intro known member
        obtain rfl | old := members known (whole.1.subset member)
        · exact countedAt_concat.mpr (.inr ⟨f, counts, rfl, rfl⟩)
        · exact countedAt_concat.mpr (.inl (sound known old))
      · intro key time counted
        -- an entry of the whole map is there, or a minute old
        have settle : ∀ last, (key, last) ∈ map → time ≤ last → (∃ last, (key, last) ∈ (watch (before ++ [e])).dedup ∧ time ≤ last) ∨
            ∃ d ∈ before ++ [e], time + 60 * nanos ≤ d.time := by
          intro last member earlier
          by_cases young : e.time < last + 60 * nanos
          · exact .inl ⟨last, whole.2 _ member young, earlier⟩
          · exact .inr ⟨e, List.mem_append_right _ List.mem_cons_self, by omega⟩
        obtain before_ | ⟨g, recorded_, rfl, rfl⟩ := countedAt_concat.mp counted
        · obtain ⟨last, member, later⟩ | ⟨d, member, passed⟩ := kept key time before_
          · by_cases same : key = (f.ip, f.source)
            · refine settle e.time (shape ▸ same ▸ List.mem_cons_self) ?_
              obtain ⟨front, d, back, -, split, -, -, rfl⟩ := before_
              exact earlier d (by rw [split]; simp)
            · refine settle last (shape ▸ List.mem_cons_of_mem _ (List.mem_filter.mpr ⟨member, decide_eq_true same⟩)) later
          · exact .inr ⟨d, List.mem_append_left _ member, passed⟩
        · rw [counts] at recorded_
          cases recorded_
          exact settle e.time (shape ▸ List.mem_cons_self) (Nat.le_refl _)

theorem lookup_iff {α β : Type} [BEq α] [LawfulBEq α] {map : List (α × β)} (unique : (map.map Prod.fst).Nodup) (key : α) (value : β) :
    map.lookup key = some value ↔ (key, value) ∈ map := by
  rw [List.lookup_eq_some_iff]
  constructor
  · rintro ⟨front, back, rfl, -⟩
    exact List.mem_append_right _ List.mem_cons_self
  · intro member
    obtain ⟨front, back, rfl⟩ := List.append_of_mem member
    refine ⟨front, back, rfl, ?_⟩
    intro known early
    rw [List.map_append, List.nodup_append] at unique
    rw [bne_iff_ne]
    exact fun same => unique.2.2 _ (List.mem_map_of_mem early) key List.mem_cons_self same.symm

theorem merged_iff {before : List Event} {e : Event} (ordered : Ordered (before ++ [e])) (key : List Char × String) :
    (watch before).merged key e.time = true ↔ ∃ time, CountedAt before key time ∧ e.time < time + 2 * nanos := by
  obtain ⟨unique, sound, kept⟩ := tracks (List.pairwise_append.mp ordered).1
  have earlier : ∀ d ∈ before, d.time ≤ e.time := fun d member => (List.pairwise_append.mp ordered).2.2 d member e List.mem_cons_self
  have second : 0 < nanos := nanos_pos
  constructor
  · intro seen
    unfold LogMonitor.merged at seen
    cases found : (watch before).dedup.lookup key with
    | none =>
      rw [found] at seen
      cases seen
    | some last =>
      rw [found] at seen
      have recent : e.time - last < 2 * nanos := of_decide_eq_true seen
      exact ⟨last, sound (key, last) ((lookup_iff unique key last).mp found), by omega⟩
  · rintro ⟨time, counted, recent⟩
    obtain ⟨last, member, later⟩ | ⟨d, member, passed⟩ := kept key time counted
    · have found : (watch before).dedup.lookup key = some last := (lookup_iff unique key last).mpr member
      rw [LogMonitor.merged, found]
      exact decide_eq_true (by omega)
    · have := earlier d member
      omega

/-- Attempts to log in from their addresses, and the lines that they leave, each within two
seconds of the others of its attempt. -/
structure Traffic where
  address : Nat → Address
  events : List Event
  ordered : Ordered events
  prompt : ∀ d ∈ events, ∀ e ∈ events, d.attempt = e.attempt → e.time ≤ d.time + 2 * nanos

def made (address : Nat → Address) (ip : List Char) (events : List Event) : Nat :=
  ((events.map Event.attempt).toFinset.filter fun i => (address i).text = ip).card

def Opens (before : List Event) (e : Event) : Prop := e.attempt ∉ before.map Event.attempt

instance (before : List Event) (e : Event) : Decidable (Opens before e) := inferInstanceAs (Decidable (_ ∉ _))

section

variable (address : Nat → Address)

def Exact (events : List Event) : Prop := ∀ ip, (watch events).failures.count ip = made address ip events

theorem made_concat (ip : List Char) (before : List Event) (e : Event) :
    made address ip (before ++ [e]) = made address ip before + if Opens before e ∧ (address e.attempt).text = ip then 1 else 0 := by
  have set_ : ((before ++ [e]).map Event.attempt).toFinset = insert e.attempt (before.map Event.attempt).toFinset := by
    ext i
    simp
  rw [made, made, set_, Finset.filter_insert]
  by_cases same : (address e.attempt).text = ip
  · by_cases opens : Opens before e
    · rw [if_pos same, if_pos ⟨opens, same⟩, Finset.card_insert_of_notMem]
      intro member
      exact opens (List.mem_toFinset.mp (Finset.mem_filter.mp member).1)
    · have inside : e.attempt ∈ ((before.map Event.attempt).toFinset.filter fun i => (address i).text = ip) :=
        Finset.mem_filter.mpr ⟨List.mem_toFinset.mpr (not_not.mp opens), same⟩
      rw [if_pos same, if_neg fun both => opens both.1, Finset.insert_eq_of_mem inside]
      rfl
  · rw [if_neg same, if_neg fun both => same both.2]
    rfl

/-- A line counts for the address of its attempt if it is the attempt's first, and else
does not count. -/
def Counts (before : List Event) (e : Event) : Prop :=
  ((recorded before e).map Failure.ip) = if Opens before e then some (address e.attempt).text else none

theorem exact_concat_iff {before : List Event} {e : Event} (exact_ : Exact address before) :
    Exact address (before ++ [e]) ↔ Counts address before e := by
  have each : ∀ ip, (watch (before ++ [e])).failures.count ip = made address ip (before ++ [e]) ↔
      (((recorded before e).map Failure.ip).toList.count ip = if Opens before e ∧ (address e.attempt).text = ip then 1 else 0) := by
    intro ip
    rw [failures_concat, List.count_append, made_concat, exact_ ip, Nat.add_left_cancel_iff, Option.toList_map]
  rw [Exact, forall_congr' each, Counts]
  constructor
  · intro same
    cases counts : (recorded before e).map Failure.ip with
    | none =>
      rw [counts] at same
      by_cases opens : Opens before e
      · have one := same (address e.attempt).text
        rw [if_pos ⟨opens, rfl⟩] at one
        cases one
      · rw [if_neg opens]
    | some ip =>
      have one := same ip
      rw [counts, Option.toList_some, List.count_singleton_self] at one
      split at one
      next both => rw [if_pos both.1, both.2]
      next => cases one
  · intro same ip
    rw [same]
    by_cases opens : Opens before e
    · rw [if_pos opens, Option.toList_some, List.count_singleton]
      simp [opens]
    · simp [opens]

/-- An earlier line that opens an attempt has the same address and label, and is less than
two seconds old. -/
def Echoes (before : List Event) (f : Failure) (now : Nat) : Prop :=
  ∃ front d back g, before = front ++ d :: back ∧ Opens front d ∧ parseFailure d.text = some g ∧
    (f.ip, f.source) = (g.ip, g.source) ∧ now < d.time + 2 * nanos

/-- The first line of an attempt tells of its address and no other attempt's first line came
just before it with the same label, and each further line is silent or comes just after a
first line with its label. -/
def Proper (before : List Event) (e : Event) : Prop :=
  if Opens before e then ∃ f, parseFailure e.text = some f ∧ f.ip = (address e.attempt).text ∧ ¬Echoes before f e.time
  else ∀ f, parseFailure e.text = some f → Echoes before f e.time

theorem counts_iff_proper {before : List Event} {e : Event} (ordered : Ordered (before ++ [e]))
    (opened : ∀ front d back, before = front ++ d :: back → Counts address front d) : Counts address before e ↔ Proper address before e := by
  have echoes : ∀ f, (watch before).merged (f.ip, f.source) e.time = true ↔ Echoes before f e.time := by
    intro f
    rw [merged_iff ordered]
    constructor
    · rintro ⟨time, ⟨front, d, back, g, split, counts, key, rfl⟩, recent⟩
      have first := opened front d back split
      rw [Counts, counts, Option.map_some] at first
      split at first
      next opens => exact ⟨front, d, back, g, split, opens, (recorded_some_iff.mp counts).1, key, recent⟩
      next => cases first
    · rintro ⟨front, d, back, g, split, opens, found, key, recent⟩
      have first := opened front d back split
      rw [Counts, if_pos opens] at first
      obtain ⟨h, counts, -⟩ := Option.map_eq_some_iff.mp first
      have same := (recorded_some_iff.mp counts).1
      rw [found, Option.some.injEq] at same
      exact ⟨d.time, ⟨front, d, back, h, split, counts, same ▸ key, rfl⟩, recent⟩
  have merges : ∀ f, (watch before).merged (f.ip, f.source) e.time = false ↔ ¬Echoes before f e.time := by
    intro f
    rw [← echoes, Bool.not_eq_true]
  rw [Counts, Proper]
  split
  next opens =>
    rw [Option.map_eq_some_iff]
    refine exists_congr fun f => ?_
    rw [recorded_some_iff, merges, and_assoc, and_comm (a := ¬Echoes before f e.time)]
  next later =>
    rw [Option.map_eq_none_iff, recorded, Option.filter_eq_none_iff]
    refine forall_congr' fun f => imp_congr Iff.rfl ?_
    rw [← echoes]
    simp

theorem prefixes_count {events : List Event} (always : ∀ before, before <+: events → Exact address before) :
    ∀ front d back, events = front ++ d :: back → Counts address front d := by
  intro front d back split
  have until_ : front ++ [d] <+: events := ⟨back, by rw [split]; simp⟩
  exact (exact_concat_iff address (always front ((List.prefix_append _ _).trans until_))).mp (always _ until_)

theorem exact_iff_proper {events : List Event} (ordered : Ordered events) :
    (∀ before, before <+: events → Exact address before) ↔
      ∀ before e after, events = before ++ e :: after → Proper address before e := by
  induction events using List.reverseRecOn with
  | nil =>
    constructor
    · intro _ before e after shape
      simp at shape
    · intro _ before begins ip
      rw [List.prefix_nil.mp begins]
      rfl
  | append_singleton events e ih =>
    have earlier := ih (List.pairwise_append.mp ordered).1
    have last : (∀ before, before <+: events → Exact address before) → (Exact address (events ++ [e]) ↔ Proper address events e) := fun always =>
      (exact_concat_iff address (always events List.prefix_rfl)).trans (counts_iff_proper address ordered (prefixes_count address always))
    constructor
    · intro always before d after split
      have start : ∀ before, before <+: events → Exact address before := fun before begins => always before (begins.trans (List.prefix_append _ _))
      obtain rfl | ⟨after, x, rfl⟩ := List.eq_nil_or_concat after
      · obtain ⟨rfl, rfl⟩ := List.append_singleton_inj.mp split
        exact (last start).mp (always _ List.prefix_rfl)
      · rw [List.concat_eq_append, ← List.cons_append, ← List.append_assoc] at split
        exact earlier.mp start before d after (List.append_singleton_inj.mp split).1
    · intro proper before begins
      have start := earlier.mpr fun front d back split => proper front d (back ++ [e]) (by rw [split]; simp)
      obtain rfl | within := List.prefix_concat_iff.mp begins
      · exact (last start).mpr (proper events e [] rfl)
      · exact start before within

end

/-- Failures are as many as attempts throughout a run of logins just if the run is proper. -/
theorem Traffic.exact_iff (t : Traffic) :
    (∀ before, before <+: t.events → Exact t.address before) ↔
      ∀ before e after, t.events = before ++ e :: after → Proper t.address before e :=
  exact_iff_proper t.address t.ordered

def unknownLogin : Traffic where
  address _ := visitor
  events := [⟨0, 0, "sshd[7]: Invalid user eve from 203.0.113.9 port 22".toList⟩,
    ⟨nanos, 0, "sshd[7]: Failed password for invalid user eve from 203.0.113.9 port 22 ssh2".toList⟩]
  ordered := List.pairwise_pair.mpr (Nat.zero_le _)
  prompt := by decide +kernel

def quickLogins : Traffic where
  address _ := visitor
  events := [⟨0, 0, "sshd[7]: Failed password for root from 203.0.113.9 port 22 ssh2".toList⟩,
    ⟨nanos, 1, "sshd[7]: Failed password for root from 203.0.113.9 port 23 ssh2".toList⟩]
  ordered := List.pairwise_pair.mpr (Nat.zero_le _)
  prompt := by decide +kernel

theorem logins_miscounted :
    ((watch unknownLogin.events).failures.count visitor.text = 2 ∧ made unknownLogin.address visitor.text unknownLogin.events = 1) ∧
      ((watch quickLogins.events).failures.count visitor.text = 1 ∧ made quickLogins.address visitor.text quickLogins.events = 2) ∧
      ¬∀ t : Traffic, Exact t.address t.events := by
  have twice : (watch unknownLogin.events).failures.count visitor.text = 2 := by decide +kernel
  have one : made unknownLogin.address visitor.text unknownLogin.events = 1 := by decide +kernel
  refine ⟨⟨twice, one⟩, by decide +kernel, fun always => ?_⟩
  have same := always unknownLogin visitor.text
  rw [twice, one] at same
  cases same

end Auth
