import WolfStack.LogHub.Store
import Mathlib.Data.List.Infix

/-! Searches of the log hub, after `loghub/query.rs`. Days and files that cannot hold a match are
skipped, by the name of the day and by the sidecar. Is what is found all there is, and nothing else? -/

namespace LogHub

def maxScanLines : Nat := 300000
def maxMatches : Nat := 50000

structure SearchQuery where
  from_ : Option Int
  to_ : Option Int
  node : Option String
  source : Option LogSource
  unit : Option String
  level : Option LogLevel
  q : Option String
  limit : Nat

structure SearchResult where
  events : List LogEvent
  scanned : Nat
  truncated : Bool

def containsText (text part : String) : Bool := decide (part.toList <:+: text.toList)

def dayBounds (chrono : Chrono) (date : String) : Option (Int × Int) :=
  (chrono.parse date).map fun day => (day * dayMillis, day * dayMillis + dayMillis - 1)

def allStems : List String := ["journald", "docker", "lxc", "file", "other"]

variable {chrono : Chrono} {lower : String → String}

namespace SearchQuery

def start (q : SearchQuery) : Int := q.from_.getD i64Min
def stop (q : SearchQuery) : Int := q.to_.getD i64Max

/-- `clamp(1, 10_000)` -/
def bound (q : SearchQuery) : Nat := max 1 (min q.limit 10000)

def stems (q : SearchQuery) : List String :=
  match q.source with
  | some s => [s.stem]
  | none => allStems

/-- The tests on an event, with `lower` for `to_lowercase`. -/
def passes (lower : String → String) (q : SearchQuery) (ev : LogEvent) : Bool :=
  !(decide (ev.ts < q.start) || decide (q.stop < ev.ts)) && (q.level.all fun floor => ev.level.rank ≤ floor.rank) &&
    (q.unit.all fun unit => containsText ev.unit unit) &&
    q.q.all fun text => containsText (lower ev.msg) (lower text) || containsText (lower ev.unit) (lower text)

def skipsDay (chrono : Chrono) (q : SearchQuery) (date : String) : Bool :=
  (dayBounds chrono date).any fun bounds => bounds.2 < q.start || q.stop < bounds.1

def skipsSegment (q : SearchQuery) (seg : Segment) : Bool :=
  seg.cold.isSome && seg.idx.any fun idx => 0 < idx.lines && (idx.maxTs < q.start || q.stop < idx.minTs)

end SearchQuery

structure Scan where
  matched : List LogEvent
  scanned : Nat

/-- A line is read. An error is `break 'outer`. -/
def scanLine (lower : String → String) (q : SearchQuery) (scan : Scan) (ev : LogEvent) : Except Scan Scan :=
  let scan := { scan with scanned := scan.scanned + 1 }
  if maxScanLines < scan.scanned then .error scan
  else if q.passes lower ev = false then .ok scan
  else
    let scan := { scan with matched := scan.matched ++ [ev] }
    if maxMatches ≤ scan.matched.length then .error scan else .ok scan

def scanSegment (lower : String → String) (s : Store) (q : SearchQuery) (scan : Scan) (place : Place) : Except Scan Scan :=
  let seg := s.segment place
  if q.skipsSegment seg = true then .ok scan
  else
    match seg.openReader with
    | none => .ok scan
    | some lines => lines.foldlM (scanLine lower q) scan

def scanDay (chrono : Chrono) (lower : String → String) (s : Store) (q : SearchQuery) (node : String) (scan : Scan) (date : String) :
    Except Scan Scan :=
  if q.skipsDay chrono date = true then .ok scan
  else (q.stems.map fun stem => (node, date, stem)).foldlM (scanSegment lower s q) scan

def scanNode (chrono : Chrono) (lower : String → String) (s : Store) (q : SearchQuery) (scan : Scan) (node : String) : Except Scan Scan :=
  (s.dates node).reverse.foldlM (scanDay chrono lower s q node) scan

def SearchQuery.nodes (q : SearchQuery) (s : Store) : List String :=
  match q.node with
  | some n => [safeComponent n]
  | none => s.nodes

def scan (chrono : Chrono) (lower : String → String) (s : Store) (q : SearchQuery) : Except Scan Scan :=
  (q.nodes s).foldlM (scanNode chrono lower s q) ⟨[], 0⟩

def search (chrono : Chrono) (lower : String → String) (s : Store) (q : SearchQuery) : SearchResult :=
  let (done, truncated) := match scan chrono lower s q with
    | .ok done => (done, false)
    | .error done => (done, true)
  let sorted := done.matched.mergeSort fun a b => decide (b.ts ≤ a.ts)
  ⟨if q.bound < sorted.length then sorted.take q.bound else sorted, done.scanned, truncated⟩

def SearchQuery.Satisfied (lower : String → String) (q : SearchQuery) (ev : LogEvent) : Bool :=
  (q.from_.all fun start => start ≤ ev.ts) && (q.to_.all fun stop => ev.ts ≤ stop) && (q.node.all fun n => ev.node = n) &&
    (q.source.all fun s => ev.source = s) && (q.level.all fun floor => ev.level.rank ≤ floor.rank) &&
    (q.unit.all fun unit => containsText ev.unit unit) &&
    q.q.all fun text => containsText (lower ev.msg) (lower text) || containsText (lower ev.unit) (lower text)

structure Exact (chrono : Chrono) (lower : String → String) (a : Archive) (q : SearchQuery) : Prop where
  newest : (search chrono lower a.store q).truncated = false → ∃ ranked : List LogEvent, ranked.Perm (a.stored.filter (q.Satisfied lower)) ∧
    ranked.Pairwise (fun x y => y.ts ≤ x.ts) ∧ (search chrono lower a.store q).events = ranked.take q.bound
  pruned : ∀ node date stem, (q.skipsDay chrono date || q.skipsSegment (a.store.segment (node, date, stem))) = true →
    ∀ ev ∈ (a.store.segment (node, date, stem)).content, q.Satisfied lower ev = false
  own : ∀ ev ∈ (search chrono lower a.store q).events, ev ∈ a.stored ∧ q.Satisfied lower ev = true

/-- No other node that is stored has the directory of the node that is asked for. -/
def SearchQuery.Sole (q : SearchQuery) (stored : List LogEvent) : Prop :=
  ∀ n, q.node = some n → ∀ ev ∈ stored, safeComponent ev.node = safeComponent n → ev.node = n

namespace SearchQuery
variable {q : SearchQuery}

def part (chrono : Chrono) (lower : String → String) (s : Store) (q : SearchQuery) (place : Place) : List LogEvent :=
  if (q.skipsDay chrono place.2.1 || q.skipsSegment (s.segment place)) = true then []
  else (s.segment place).content.filter (q.passes lower)

def places (q : SearchQuery) (s : Store) : List Place :=
  (q.nodes s).flatMap fun node => (s.dates node).reverse.flatMap fun date => q.stems.map fun stem => (node, date, stem)

variable {s : Store}

theorem scanLine_ok {before after : Scan} {ev : LogEvent} (done : scanLine lower q before ev = .ok after) :
    after.matched = before.matched ++ if q.passes lower ev = true then [ev] else [] := by
  unfold scanLine at done
  dsimp only at done
  split at done
  · cases done
  · split at done
    · rename_i fails
      cases done
      simp [fails]
    · rename_i passes
      split at done
      · cases done
      · cases done
        simp [Bool.of_not_eq_false passes]

theorem scanSegment_ok {before after : Scan} {place : Place} (shown : q.skipsDay chrono place.2.1 = false)
    (done : scanSegment lower s q before place = .ok after) : after.matched = before.matched ++ q.part chrono lower s place := by
  unfold scanSegment at done
  unfold part
  dsimp only at done
  split at done
  · rename_i skipped
    cases done
    simp [skipped]
  · rename_i read
    rw [shown, Bool.false_or, if_neg read]
    split at done
    · rename_i none_
      cases done
      simp [Segment.content, none_]
    · rename_i lines there
      have gathered := Buckets.gathers Scan.matched (fun ev => if q.passes lower ev = true then [ev] else []) lines
        (fun ev _ before after done => scanLine_ok done) done
      rw [gathered, Segment.content, there]
      congr 1
      exact (Buckets.filter_flatMap _ _).symm

theorem scanDay_ok {before after : Scan} {node date : String} (done : scanDay chrono lower s q node before date = .ok after) :
    after.matched = before.matched ++ (q.stems.map fun stem => (node, date, stem)).flatMap (q.part chrono lower s) := by
  unfold scanDay at done
  split at done
  · rename_i skipped
    cases done
    simp [part, skipped]
  · rename_i shown
    refine Buckets.gathers Scan.matched (q.part chrono lower s) _ (fun place member before after done => ?_) done
    obtain ⟨stem, -, rfl⟩ := List.mem_map.mp member
    exact scanSegment_ok (Bool.of_not_eq_true shown) done

theorem scan_ok {done : Scan} (complete : scan chrono lower s q = .ok done) :
    done.matched = (q.places s).flatMap (q.part chrono lower s) := by
  have gathered := Buckets.gathers Scan.matched
    (fun node => ((s.dates node).reverse.flatMap fun date => q.stems.map fun stem => (node, date, stem)).flatMap (q.part chrono lower s)) _
    (fun node _ before after done => ?_) complete
  · rw [gathered, places, List.nil_append, List.flatMap_assoc]
  · have day := Buckets.gathers Scan.matched (fun date => (q.stems.map fun stem => (node, date, stem)).flatMap (q.part chrono lower s)) _
      (fun date _ before after done => scanDay_ok done) done
    rw [day, List.flatMap_assoc]

theorem listed_nodup (names : List String) : (listed names).Nodup :=
  (List.perm_insertionSort _ _).nodup_iff.mpr (List.nodup_dedup names)

theorem mem_listed {names : List String} {name : String} : name ∈ listed names ↔ name ∈ names := by
  rw [listed, (List.perm_insertionSort _ _).mem_iff, List.mem_dedup]

theorem mem_places {place : Place} : place ∈ q.places s ↔ place.1 ∈ q.nodes s ∧ place.2.1 ∈ s.dates place.1 ∧ place.2.2 ∈ q.stems := by
  obtain ⟨node, date, stem⟩ := place
  simp only [places, List.mem_flatMap, List.mem_map, List.mem_reverse, Prod.mk.injEq]
  constructor
  · rintro ⟨node, there, date, among, stem, of_, rfl, rfl, rfl⟩
    exact ⟨there, among, of_⟩
  · rintro ⟨there, among, of_⟩
    exact ⟨node, there, date, among, stem, of_, rfl, rfl, rfl⟩

theorem places_nodup : (q.places s).Nodup := by
  have nodes : (q.nodes s).Nodup := by
    unfold SearchQuery.nodes
    split
    · exact List.nodup_singleton _
    · exact listed_nodup _
  have stems : q.stems.Nodup := by
    unfold SearchQuery.stems
    split
    · exact List.nodup_singleton _
    · decide
  refine Buckets.nodup (fun place => place.1) nodes (fun node _ => ?_) fun node _ place member => ?_
  · refine Buckets.nodup (fun place => place.2.1) (List.nodup_reverse.mpr (listed_nodup _)) (fun date _ => ?_) fun date _ place member => ?_
    · exact stems.map fun a b same => congrArg (fun place => place.2.2) same
    · obtain ⟨stem, -, rfl⟩ := List.mem_map.mp member
      rfl
  · obtain ⟨date, -, there⟩ := List.mem_flatMap.mp member
    obtain ⟨stem, -, rfl⟩ := List.mem_map.mp there
    rfl

theorem visited {a : Archive} (kept : a.Kept chrono) {ev : LogEvent} (member : ev ∈ a.stored) :
    ev.place chrono 0 ∈ q.places a.store ↔ (∀ n, q.node = some n → safeComponent ev.node = safeComponent n) ∧ ∀ s, q.source = some s → ev.source = s := by
  have dir := kept.dirs ev member
  rw [mem_places]
  have node : (ev.place chrono 0).1 ∈ q.nodes a.store ↔ ∀ n, q.node = some n → safeComponent ev.node = safeComponent n := by
    unfold SearchQuery.nodes
    cases asked : q.node with
    | none => simpa [Store.nodes, mem_listed] using ⟨_, dir⟩
    | some n => simp [LogEvent.place]
  have stem : (ev.place chrono 0).2.2 ∈ q.stems ↔ ∀ s, q.source = some s → ev.source = s := by
    unfold SearchQuery.stems
    cases asked : q.source with
    | none =>
      have known : ∀ source : LogSource, source.stem ∈ allStems := by
        intro source
        cases source <;> decide
      simpa [LogEvent.place] using known ev.source
    | some s => simp [LogEvent.place, LogSource.stem_inj]
  have date : (ev.place chrono 0).2.1 ∈ a.store.dates (ev.place chrono 0).1 := by
    rw [Store.dates, mem_listed, List.mem_map]
    exact ⟨_, List.mem_filter.mpr ⟨dir, decide_eq_true rfl⟩, rfl⟩
  rw [node, stem]
  exact ⟨fun held => ⟨held.1, held.2.2⟩, fun held => ⟨held.1, date, held.2⟩⟩

theorem window {ev : LogEvent} : ((q.from_.all fun start => start ≤ ev.ts) && (q.to_.all fun stop => ev.ts ≤ stop)) =
    !(decide (ev.ts < q.start) || decide (q.stop < ev.ts)) := by
  have low := ev.lowest
  have high := ev.highest
  unfold start stop
  cases q.from_ <;> cases q.to_ <;> simp [Bool.not_or, ← decide_not] <;> omega

theorem satisfied_iff {ev : LogEvent} : q.Satisfied lower ev = (((q.node.all fun n => ev.node = n) && q.source.all fun s => ev.source = s) && q.passes lower ev) := by
  unfold Satisfied passes
  rw [← window]
  generalize (q.from_.all fun start => decide (start ≤ ev.ts)) = a
  generalize (q.to_.all fun stop => decide (ev.ts ≤ stop)) = b
  generalize (q.node.all fun n => decide (ev.node = n)) = c
  generalize (q.source.all fun s => decide (ev.source = s)) = d
  cases a <;> cases b <;> cases c <;> cases d <;> simp

theorem passes_window {ev : LogEvent} (passes : q.passes lower ev = true) : q.start ≤ ev.ts ∧ ev.ts ≤ q.stop := by
  simp only [SearchQuery.passes, Bool.and_eq_true, Bool.not_eq_true', Bool.or_eq_false_iff, decide_eq_false_iff_not, Int.not_lt] at passes
  exact passes.1.1.1

theorem skipped_fails {a : Archive} (sound : chrono.Sound) (kept : a.Kept chrono) {place : Place}
    (skipped : (q.skipsDay chrono place.2.1 || q.skipsSegment (a.store.segment place)) = true) {ev : LogEvent}
    (member : ev ∈ (a.store.segment place).content) : q.passes lower ev = false := by
  rw [Bool.eq_false_iff]
  intro passes
  obtain ⟨late, early⟩ := passes_window passes
  rcases Bool.or_eq_true_iff.mp skipped with day | segment
  · rw [kept.content place, List.mem_filter] at member
    obtain ⟨among, here⟩ := member
    obtain ⟨number, dated⟩ := Option.isSome_iff_exists.mp (kept.dated ev among)
    have name : place.2.1 = chrono.format number := by
      rw [← of_decide_eq_true here]
      simp [LogEvent.place, Chrono.dateStr, dated]
    obtain ⟨first, last⟩ := sound.within _ _ dated
    simp only [skipsDay, dayBounds, name, sound.read _ _ dated, Option.map_some, Option.any_some, Bool.or_eq_true, decide_eq_true_eq] at day
    rw [Int.add_mul] at last
    omega
  · simp only [skipsSegment, Bool.and_eq_true, Option.any_eq_true, Bool.or_eq_true, decide_eq_true_eq] at segment
    obtain ⟨-, idx, there, -, outside⟩ := segment
    obtain ⟨cold, found, covers⟩ := (kept.settled place).index idx there
    rw [Segment.content, Segment.openReader, found] at member
    have within := covers ev member
    omega

theorem part_filter {a : Archive} (sound : chrono.Sound) (kept : a.Kept chrono) (place : Place) :
    q.part chrono lower a.store place = (a.store.segment place).content.filter (q.passes lower) := by
  unfold part
  split
  · rename_i skipped
    symm
    rw [List.filter_eq_nil_iff]
    intro ev member
    rw [skipped_fails sound kept skipped member]
    exact Bool.false_ne_true
  · rfl

theorem asked {a : Archive} (kept : a.Kept chrono) (sole : q.Sole a.stored) {ev : LogEvent} (member : ev ∈ a.stored) :
    ev.place chrono 0 ∈ q.places a.store ↔ ((q.node.all fun n => ev.node = n) && q.source.all fun s => ev.source = s) = true := by
  rw [visited kept member]
  simp only [Bool.and_eq_true, Option.all_eq_true, decide_eq_true_eq]
  constructor
  · exact fun held => ⟨fun n wanted => sole n wanted ev member (held.1 n wanted), held.2⟩
  · exact fun held => ⟨fun n wanted => congrArg safeComponent (held.1 n wanted), held.2⟩

theorem gathered {a : Archive} (sound : chrono.Sound) (kept : a.Kept chrono) (sole : q.Sole a.stored) :
    ((q.places a.store).flatMap (q.part chrono lower a.store)).Perm (a.stored.filter (q.Satisfied lower)) := by
  have parts : (q.places a.store).flatMap (q.part chrono lower a.store) =
      ((q.places a.store).flatMap fun place => a.stored.filter fun ev => ev.place chrono 0 = place).filter (q.passes lower) := by
    rw [List.filter_flatMap]
    apply List.flatMap_congr
    intro place _
    rw [part_filter sound kept, kept.content]
  have bucketed := (Buckets.perm (fun ev : LogEvent => ev.place chrono 0) (places_nodup (q := q) (s := a.store)) a.stored).filter (q.passes lower)
  rw [parts]
  refine bucketed.trans (List.Perm.of_eq ?_)
  rw [List.filter_filter]
  apply List.filter_congr
  intro ev member
  rw [satisfied_iff, Bool.and_comm]
  congr 1
  rw [Bool.eq_iff_iff]
  simp only [decide_eq_true_eq]
  exact asked kept sole member

def Good (lower : String → String) (a : Archive) (q : SearchQuery) (scan : Scan) : Prop :=
  ∀ ev ∈ scan.matched, ev ∈ a.stored ∧ q.Satisfied lower ev = true

theorem scanLine_good {a : Archive} (kept : a.Kept chrono) (sole : q.Sole a.stored) {place : Place} (among : place ∈ q.places a.store)
    {ev : LogEvent} (member : ev ∈ (a.store.segment place).content) {before : Scan} (good : Good lower a q before) :
    Good lower a q (Buckets.settled (scanLine lower q before ev)) := by
  rw [kept.content place, List.mem_filter] at member
  obtain ⟨stored, here⟩ := member
  have wanted := (asked kept sole stored).mp (of_decide_eq_true here ▸ among)
  unfold scanLine
  dsimp only
  split
  · exact good
  · split
    · exact good
    · rename_i passes
      have satisfied : q.Satisfied lower ev = true := by rw [satisfied_iff, wanted, Bool.of_not_eq_false passes, Bool.and_self]
      have more : ∀ other ∈ before.matched ++ [ev], other ∈ a.stored ∧ q.Satisfied lower other = true := by
        intro other there
        rcases List.mem_append.mp there with earlier | last
        · exact good other earlier
        · rw [List.mem_singleton.mp last]
          exact ⟨stored, satisfied⟩
      split <;> exact more

theorem scan_good {a : Archive} (kept : a.Kept chrono) (sole : q.Sole a.stored) :
    Good lower a q (Buckets.settled (scan chrono lower a.store q)) := by
  refine Buckets.keeps (Good lower a q) _ (fun node there before good => ?_) fun _ impossible => (nomatch impossible)
  refine Buckets.keeps (Good lower a q) _ (fun date listed before good => ?_) good
  unfold scanDay
  split
  · exact good
  · refine Buckets.keeps (Good lower a q) _ (fun place member before good => ?_) good
    obtain ⟨stem, of_, rfl⟩ := List.mem_map.mp member
    have among : (node, date, stem) ∈ q.places a.store := mem_places.mpr ⟨there, List.mem_reverse.mp listed, of_⟩
    unfold scanSegment
    dsimp only
    split
    · exact good
    · split
      · exact good
      · rename_i lines opened
        refine Buckets.keeps (Good lower a q) _ (fun ev line before good => scanLine_good kept sole among ?_ good) good
        rw [Segment.content, opened]
        exact line

end SearchQuery

theorem search_events (s : Store) (q : SearchQuery) : (search chrono lower s q).events =
    ((Buckets.settled (scan chrono lower s q)).matched.mergeSort fun a b => decide (b.ts ≤ a.ts)).take q.bound := by
  unfold search
  cases scan chrono lower s q <;>
  · dsimp only [Buckets.settled]
    split
    · rfl
    · rename_i few
      exact (List.take_of_length_le (Nat.not_lt.mp few)).symm

theorem search_is_exact (sound : chrono.Sound) {a : Archive} (built : Built chrono (Timely chrono) a) {q : SearchQuery}
    (sole : q.Sole a.stored) : Exact chrono lower a q := by
  have kept := built.kept
  constructor
  case newest =>
    intro complete
    rw [search_events]
    cases done : scan chrono lower a.store q with
    | error stopped =>
      simp only [search, done] at complete
      cases complete
    | ok done_ =>
      refine ⟨done_.matched.mergeSort fun x y => decide (y.ts ≤ x.ts), ?_, ?_, rfl⟩
      · refine (List.mergeSort_perm _ _).trans ?_
        rw [SearchQuery.scan_ok done]
        exact SearchQuery.gathered sound kept sole
      · have sorted := @List.pairwise_mergeSort LogEvent (fun x y => decide (y.ts ≤ x.ts))
          (fun x y z first second => decide_eq_true (Int.le_trans (of_decide_eq_true second) (of_decide_eq_true first)))
          (fun x y => by simpa only [Bool.or_eq_true, decide_eq_true_eq] using Int.le_total y.ts x.ts) done_.matched
        exact sorted.imp of_decide_eq_true
  case pruned =>
    intro node date stem skipped ev member
    rw [SearchQuery.satisfied_iff, SearchQuery.skipped_fails sound kept skipped member, Bool.and_false]
  case own =>
    intro ev member
    rw [search_events] at member
    exact SearchQuery.scan_good kept sole ev ((List.mergeSort_perm _ _).mem_iff.mp (List.mem_of_mem_take member))

/-- The first two days of the epoch. -/
def sampleChrono : Chrono where
  dayOf ts := if 0 ≤ ts ∧ ts < 2 * dayMillis then some (ts / dayMillis) else none
  format day := if day = 0 then "1970-01-01" else "1970-01-02"
  parse date := if date = "1970-01-01" then some 0 else if date = "1970-01-02" then some 1 else none

theorem sampleChrono_sound : sampleChrono.Sound := by
  have days : ∀ ts day, sampleChrono.dayOf ts = some day → day * dayMillis ≤ ts ∧ ts < (day + 1) * dayMillis ∧ (day = 0 ∨ day = 1) := by
    intro ts day dated
    have inside : 0 ≤ ts ∧ ts < 2 * dayMillis := by
      by_contra outside
      rw [sampleChrono] at dated
      dsimp only at dated
      rw [if_neg outside] at dated
      cases dated
    simp only [sampleChrono, if_pos inside, Option.some.injEq] at dated
    unfold dayMillis at inside dated ⊢
    omega
  refine ⟨fun ts day dated => ⟨(days ts day dated).1, (days ts day dated).2.1⟩, fun ts day dated => ?_⟩
  obtain ⟨-, -, rfl | rfl⟩ := days ts day dated <;> decide

def sampleEvent (node : String) (ts : Fin 100000000) : LogEvent where
  ts := ts
  node
  source := .journald
  unit := "sshd.service"
  level := .info
  msg := "session opened"
  fields := []
  lowest := by unfold i64Min; omega
  highest := by unfold i64Max; omega

def everything : SearchQuery := ⟨none, none, none, none, none, none, none, 1000⟩

def morning : Archive := Act.perform sampleChrono .empty (.append 0 [sampleEvent "web-1" 1000, sampleEvent "web-2" 2000])

def overnight : Archive := Act.perform sampleChrono morning (.compress 1 fun _ => .done .written true)

def nextDay : Archive := Act.perform sampleChrono overnight (.append 1 [sampleEvent "web-1" 86400001])

theorem nextDay_built : Built sampleChrono (Timely sampleChrono) nextDay := by
  have first : Built sampleChrono (Timely sampleChrono) morning := by
    refine .next .start fun ev member => ⟨?_, rfl⟩
    simp only [List.mem_cons, List.not_mem_nil, or_false] at member
    rcases member with rfl | rfl <;> decide
  have second : Built sampleChrono (Timely sampleChrono) overnight := .next first trivial
  refine .next second fun ev member => ?_
  rw [List.mem_singleton.mp member]
  exact ⟨by decide, by decide⟩

def ofNode : SearchQuery := { everything with node := some "web-1" }

theorem ofNode_sole : ofNode.Sole nextDay.stored := by
  intro n asked ev member same
  cases asked
  simp only [nextDay, overnight, morning, Act.perform, Archive.empty, List.nil_append, List.cons_append, List.mem_cons, List.not_mem_nil,
    or_false] at member
  rcases member with rfl | rfl | rfl
  · rfl
  · exact absurd same (by decide)
  · rfl

theorem search_is_exact_sample : (Buckets.settled (scan sampleChrono String.toLower nextDay.store ofNode)).matched.length = 2 ∧
    Exact sampleChrono String.toLower nextDay ofNode :=
  ⟨by decide, search_is_exact sampleChrono_sound nextDay_built ofNode_sole⟩

def belated : Archive := Act.perform sampleChrono overnight (.append 1 [sampleEvent "web-1" 3000])

theorem late_event_missed : ¬∀ a : Archive, Built sampleChrono (fun _ _ => True) a → ∀ q, Exact sampleChrono String.toLower a q := by
  intro exact_
  have built : Built sampleChrono (fun _ _ => True) belated := .next (.next (.next .start trivial) trivial) trivial
  have complete : (search sampleChrono String.toLower belated.store everything).truncated = false := by decide
  obtain ⟨ranked, perm, -, found⟩ := (exact_ belated built everything).newest complete
  have all : (belated.stored.filter (everything.Satisfied String.toLower)).length = 3 := by decide
  have matched : (Buckets.settled (scan sampleChrono String.toLower belated.store everything)).matched.length = 2 := by decide
  have lengths := congrArg List.length found
  rw [search_events, List.length_take, List.length_take, List.length_mergeSort, matched, perm.length_eq, all] at lengths
  exact absurd lengths (by decide)

end LogHub
