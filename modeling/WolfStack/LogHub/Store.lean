import Std.Data.TreeMap
import Std.Data.TreeSet
import WolfStack.Lists.Buckets
import Mathlib.Data.List.Dedup
import Mathlib.Data.List.Sort
import Mathlib.Algebra.Group.Int.Defs

/-! The store of the log hub, after `loghub/mod.rs` and `loghub/store.rs`: events in files by node,
day and source. A file of a closed day is compacted, and gets a sidecar by which searches skip it.
A line is taken for the event that it holds. -/

namespace LogHub
open Std (TreeMap TreeSet)

inductive LogSource where
  | journald
  | docker
  | lxc
  | file
  | other
deriving DecidableEq, Repr

def LogSource.stem : LogSource → String
  | .journald => "journald"
  | .docker => "docker"
  | .lxc => "lxc"
  | .file => "file"
  | .other => "other"

theorem LogSource.stem_inj {a b : LogSource} : a.stem = b.stem ↔ a = b := by
  cases a <;> cases b <;> decide

inductive LogLevel where
  | emerg
  | alert
  | crit
  | error
  | warning
  | notice
  | info
  | debug
  | unknown
deriving DecidableEq, Repr

/-- The order of levels, from the most severe on. -/
def LogLevel.rank : LogLevel → Nat
  | .emerg => 0
  | .alert => 1
  | .crit => 2
  | .error => 3
  | .warning => 4
  | .notice => 5
  | .info => 6
  | .debug => 7
  | .unknown => 8

/-- The level as it is serialised. -/
def LogLevel.text : LogLevel → String
  | .emerg => "emerg"
  | .alert => "alert"
  | .crit => "crit"
  | .error => "error"
  | .warning => "warning"
  | .notice => "notice"
  | .info => "info"
  | .debug => "debug"
  | .unknown => "unknown"

def i64Min : Int := -2 ^ 63
def i64Max : Int := 2 ^ 63 - 1

structure LogEvent where
  ts : Int
  node : String
  source : LogSource
  unit : String
  level : LogLevel
  msg : String
  fields : List (String × String)
  lowest : i64Min ≤ ts
  highest : ts ≤ i64Max
deriving DecidableEq

def dayMillis : Int := 86400000

/-- What `chrono` is used for. Days are counted from the epoch; a timestamp may be too far away to
have one. -/
structure Chrono where
  dayOf : Int → Option Int
  format : Int → String
  parse : String → Option Int

structure Chrono.Sound (chrono : Chrono) : Prop where
  within : ∀ ts day, chrono.dayOf ts = some day → day * dayMillis ≤ ts ∧ ts < (day + 1) * dayMillis
  read : ∀ ts day, chrono.dayOf ts = some day → chrono.parse (chrono.format day) = some day

variable {chrono : Chrono}

/-- `date_str`, where it is `today` by the clock. -/
def Chrono.dateStr (chrono : Chrono) (today ts : Int) : String := chrono.format ((chrono.dayOf ts).getD today)

def trimDots (chars : List Char) : List Char := ((chars.dropWhile (· == '.')).reverse.dropWhile (· == '.')).reverse

def safeComponent (s : String) : String :=
  let cleaned := trimDots (s.toList.map fun c => if c.isAlphanum || c == '.' || c == '_' || c == '-' then c else '_')
  if cleaned = [] then "unknown" else String.ofList cleaned

abbrev Place := String × String × String

def LogEvent.place (chrono : Chrono) (today : Int) (ev : LogEvent) : Place :=
  (safeComponent ev.node, chrono.dateStr today ev.ts, ev.source.stem)

structure SegmentIndex where
  minTs : Int
  maxTs : Int
  lines : Nat
  units : List String
  levels : TreeMap String Nat

structure Segment where
  hot : Option (List LogEvent)
  cold : Option (List LogEvent)
  idx : Option SegmentIndex

def maxIdxUnits : Nat := 256

def noteEvent (state : SegmentIndex × TreeSet String) (ev : LogEvent) : SegmentIndex × TreeSet String :=
  ({ state.1 with
    lines := state.1.lines + 1
    minTs := min state.1.minTs ev.ts
    maxTs := max state.1.maxTs ev.ts
    levels := state.1.levels.insert ev.level.text (state.1.levels.getD ev.level.text 0 + 1) },
    if state.2.size < maxIdxUnits then state.2.insert ev.unit else state.2)

def buildIndex (lines : List LogEvent) : SegmentIndex :=
  let (idx, units) := lines.foldl noteEvent (⟨i64Max, i64Min, 0, [], ∅⟩, ∅)
  let idx := if idx.lines = 0 then { idx with minTs := 0, maxTs := 0 } else idx
  { idx with units := units.toList }

/-- The cold file if there is one, else the hot one. -/
def Segment.openReader (seg : Segment) : Option (List LogEvent) := seg.cold.or seg.hot

def Segment.content (seg : Segment) : List LogEvent := seg.openReader.getD []

structure Store where
  dirs : List (String × String)
  segment : Place → Segment

def Store.empty : Store := ⟨[], fun _ => ⟨none, none, none⟩⟩

/-- Names of directories, sorted. -/
def listed (names : List String) : List String := names.dedup.insertionSort (· ≤ ·)

def Store.nodes (s : Store) : List String := listed (s.dirs.map fun dir => dir.1)

def Store.dates (s : Store) (node : String) : List String := listed ((s.dirs.filter fun dir => dir.1 = node).map fun dir => dir.2)

/-- Each file gets the events that belong in it, in their order. -/
def appendEvents (chrono : Chrono) (today : Int) (events : List LogEvent) (s : Store) : Store where
  dirs := s.dirs ++ events.map fun ev => ((ev.place chrono today).1, (ev.place chrono today).2.1)
  segment place :=
    match events.filter fun ev => ev.place chrono today = place with
    | [] => s.segment place
    | lines => { s.segment place with hot := some ((s.segment place).hot.getD [] ++ lines) }

inductive Sidecar where
  | written
  | untouched
  | torn

/-- How it goes with a hot file: it is not compacted, or it is, and may still be there afterwards. -/
inductive Compaction where
  | failed
  | done (sidecar : Sidecar) (removed : Bool)

def Segment.compact (seg : Segment) : Compaction → Segment
  | .failed => seg
  | .done sidecar removed =>
    match seg.hot with
    | none => seg
    | some lines => {
      cold := some lines
      idx := match sidecar with
        | .written => some (buildIndex lines)
        | .untouched => seg.idx
        | .torn => none
      hot := if removed then none else some lines }

def compressClosedSegments (today : String) (outcome : Place → Compaction) (s : Store) : Store := { s with
  segment := fun place => if place.2.1 < today then (s.segment place).compact (outcome place) else s.segment place }

inductive Act where
  | append (today : Int) (events : List LogEvent)
  | compress (today : Int) (outcome : Place → Compaction)

structure Archive where
  store : Store
  stored : List LogEvent

def Archive.empty : Archive := ⟨.empty, []⟩

def Act.perform (chrono : Chrono) (a : Archive) : Act → Archive
  | .append today events => ⟨appendEvents chrono today events a.store, a.stored ++ events⟩
  | .compress today outcome => { a with store := compressClosedSegments (chrono.format today) outcome a.store }

inductive Built (chrono : Chrono) (permitted : Archive → Act → Prop) : Archive → Prop where
  | start : Built chrono permitted .empty
  | next {a : Archive} {act : Act} (before : Built chrono permitted a) (may : permitted a act) : Built chrono permitted (act.perform chrono a)

/-- Events are appended that have a day, to files that have not been compacted yet. -/
def Timely (chrono : Chrono) (a : Archive) : Act → Prop
  | .append today events => ∀ ev ∈ events, (chrono.dayOf ev.ts).isSome ∧ (a.store.segment (ev.place chrono today)).cold = none
  | .compress _ _ => True

def SegmentIndex.Covers (idx : SegmentIndex) (lines : List LogEvent) : Prop := ∀ ev ∈ lines, idx.minTs ≤ ev.ts ∧ ev.ts ≤ idx.maxTs

theorem noteEvent_widens (lines : List LogEvent) (state : SegmentIndex × TreeSet String) :
    (lines.foldl noteEvent state).1.lines = state.1.lines + lines.length ∧ (lines.foldl noteEvent state).1.minTs ≤ state.1.minTs ∧
      state.1.maxTs ≤ (lines.foldl noteEvent state).1.maxTs ∧ (lines.foldl noteEvent state).1.Covers lines := by
  induction lines generalizing state with
  | nil => simp [SegmentIndex.Covers]
  | cons ev lines ih =>
    obtain ⟨count, low, high, covers⟩ := ih (noteEvent state ev)
    rw [List.foldl_cons]
    have lower : (noteEvent state ev).1.minTs = min state.1.minTs ev.ts := rfl
    have higher : (noteEvent state ev).1.maxTs = max state.1.maxTs ev.ts := rfl
    have more : (noteEvent state ev).1.lines = state.1.lines + 1 := rfl
    refine ⟨?_, by omega, by omega, fun other member => ?_⟩
    · rw [count, more, List.length_cons]
      omega
    · rcases List.mem_cons.mp member with rfl | rest
      · omega
      · exact covers other rest

theorem buildIndex_covers (lines : List LogEvent) : (buildIndex lines).Covers lines := by
  obtain ⟨count, -, -, covers⟩ := noteEvent_widens lines (⟨i64Max, i64Min, 0, [], ∅⟩, ∅)
  unfold buildIndex
  intro ev member
  have some_ : (lines.foldl noteEvent (⟨i64Max, i64Min, 0, [], ∅⟩, ∅)).1.lines ≠ 0 := by
    have := List.length_pos_of_mem member
    omega
  simp only [if_neg some_]
  exact covers ev member

/-- Where both files are there they are alike, and a sidecar belongs to the cold one. -/
structure Segment.Settled (seg : Segment) : Prop where
  both : ∀ hot cold, seg.hot = some hot → seg.cold = some cold → hot = cold
  index : ∀ idx, seg.idx = some idx → ∃ cold, seg.cold = some cold ∧ idx.Covers cold

theorem Segment.Settled.compact {seg : Segment} (settled : seg.Settled) (outcome : Compaction) :
    (seg.compact outcome).Settled ∧ (seg.compact outcome).content = seg.content := by
  cases outcome with
  | failed => exact ⟨settled, rfl⟩
  | done sidecar removed =>
    unfold Segment.compact
    dsimp only
    cases hot : seg.hot with
    | none => exact ⟨settled, rfl⟩
    | some lines =>
      constructor
      · constructor
        · intro again cold there same
          cases same
          dsimp only at there
          split at there
          · cases there
          · exact (Option.some.inj there).symm
        · intro idx there
          refine ⟨lines, rfl, ?_⟩
          cases sidecar with
          | written =>
            cases there
            exact buildIndex_covers lines
          | untouched =>
            obtain ⟨cold, found, covers⟩ := settled.index idx there
            rw [settled.both lines cold hot found]
            exact covers
          | torn => cases there
      · unfold Segment.content Segment.openReader
        cases cold : seg.cold with
        | none => simp [hot]
        | some old => simp [settled.both lines old hot cold]

theorem place_day {today other : Int} {ev : LogEvent} (dated : (chrono.dayOf ev.ts).isSome) : ev.place chrono today = ev.place chrono other := by
  obtain ⟨day, found⟩ := Option.isSome_iff_exists.mp dated
  simp [LogEvent.place, Chrono.dateStr, found]

structure Archive.Kept (chrono : Chrono) (a : Archive) : Prop where
  settled : ∀ place, (a.store.segment place).Settled
  content : ∀ place, (a.store.segment place).content = a.stored.filter fun ev => ev.place chrono 0 = place
  dirs : ∀ ev ∈ a.stored, ((ev.place chrono 0).1, (ev.place chrono 0).2.1) ∈ a.store.dirs
  dated : ∀ ev ∈ a.stored, (chrono.dayOf ev.ts).isSome

theorem empty_kept : Archive.empty.Kept chrono := by
  have settled : ∀ place, (Archive.empty.store.segment place).Settled := by
    intro place
    constructor
    · intro hot cold impossible
      cases impossible
    · intro idx impossible
      cases impossible
  exact ⟨settled, fun _ => rfl, fun _ member => (nomatch member), fun _ member => (nomatch member)⟩

theorem Archive.Kept.append {a : Archive} (kept : a.Kept chrono) {today : Int} {events : List LogEvent}
    (timely : Timely chrono a (.append today events)) : (Act.perform chrono a (.append today events)).Kept chrono := by
  have home : ∀ ev ∈ events, ev.place chrono today = ev.place chrono 0 := fun ev member => place_day (timely ev member).1
  have same : ∀ place, (events.filter fun ev => ev.place chrono today = place) = events.filter fun ev => ev.place chrono 0 = place := by
    intro place
    apply List.filter_congr
    intro ev member
    rw [home ev member]
  have touched : ∀ place, (events.filter fun ev => ev.place chrono today = place) ≠ [] → (a.store.segment place).cold = none := by
    intro place some_
    obtain ⟨ev, member⟩ := List.exists_mem_of_ne_nil _ some_
    obtain ⟨among, here⟩ := List.mem_filter.mp member
    rw [← of_decide_eq_true here]
    exact (timely ev among).2
  constructor
  case settled =>
    intro place
    dsimp only [Act.perform, appendEvents]
    split
    · exact kept.settled place
    · rename_i lines some_
      have cold := touched place some_
      refine ⟨fun hot other _ there => ?_, (kept.settled place).index⟩
      rw [cold] at there
      cases there
  case content =>
    intro place
    have before := kept.content place
    dsimp only [Act.perform, appendEvents]
    rw [List.filter_append, ← before, ← same place]
    split
    · rename_i none_
      rw [none_, List.append_nil]
    · rename_i some_
      have cold := touched place some_
      simp [Segment.content, Segment.openReader, cold]
  case dirs =>
    intro ev member
    rcases List.mem_append.mp member with old | new
    · exact List.mem_append_left _ (kept.dirs ev old)
    · rw [← home ev new]
      exact List.mem_append_right _ (List.mem_map.mpr ⟨ev, new, rfl⟩)
  case dated =>
    intro ev member
    rcases List.mem_append.mp member with old | new
    · exact kept.dated ev old
    · exact (timely ev new).1

theorem Archive.Kept.compress {a : Archive} (kept : a.Kept chrono) (today : Int) (outcome : Place → Compaction) :
    (Act.perform chrono a (.compress today outcome)).Kept chrono := by
  have each : ∀ place, (((compressClosedSegments (chrono.format today) outcome a.store).segment place).Settled ∧
      ((compressClosedSegments (chrono.format today) outcome a.store).segment place).content = (a.store.segment place).content) := by
    intro place
    dsimp only [compressClosedSegments]
    split
    · exact (kept.settled place).compact _
    · exact ⟨kept.settled place, rfl⟩
  exact ⟨fun place => (each place).1, fun place => (each place).2.trans (kept.content place), kept.dirs, kept.dated⟩

theorem Built.kept {a : Archive} (built : Built chrono (Timely chrono) a) : a.Kept chrono := by
  induction built with
  | start => exact empty_kept
  | @next a act _ may ih =>
    cases act with
    | append today events => exact ih.append may
    | compress today outcome => exact ih.compress today outcome

end LogHub
