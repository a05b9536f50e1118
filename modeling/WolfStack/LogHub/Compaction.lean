import WolfStack.LogHub.Search
import WolfStack.Effects.Steps

/-! The janitor's compaction of a file step by step, with batches that come in between: the index is
built from the hot file, a copy of which is staged and renamed into place, and the hot file goes at the
end. Is every event still in the store, and found? -/

namespace LogHub
open Effects

inductive Phase where
  | indexed (idx : SegmentIndex)
  | staged (idx : SegmentIndex) (lines : List LogEvent)
  | placed (idx : SegmentIndex)
  | described

structure Hub where
  archive : Archive
  job : Option (Place × Phase)

inductive HubStep where
  | append (today : Int) (events : List LogEvent)
  | index (today : Int) (place : Place)
  | encode
  | rename
  | writeIdx (sidecar : Sidecar)
  | unlink (removed : Bool)
  | abandon
  | removeDay (node date : String)

def Archive.change (a : Archive) (place : Place) (f : Segment → Segment) : Archive :=
  { a with store := { a.store with segment := Function.update a.store.segment place (f (a.store.segment place)) } }

def Sidecar.leaves (sidecar : Sidecar) (idx : SegmentIndex) (old : Option SegmentIndex) : Option SegmentIndex :=
  match sidecar with
  | .written => some idx
  | .untouched => old
  | .torn => none

/-- The directory of a day is removed, and its events do not count any more. -/
def Archive.removeDay (chrono : Chrono) (a : Archive) (node date : String) : Archive where
  store := {
    dirs := a.store.dirs.filter fun dir => dir ≠ (node, date)
    segment := fun place => if (place.1, place.2.1) = (node, date) then ⟨none, none, none⟩ else a.store.segment place }
  stored := a.stored.filter fun ev => ((ev.place chrono 0).1, (ev.place chrono 0).2.1) ≠ (node, date)

/-- One step, where it is the janitor's turn for it. A stop of the process leaves the files as they are. -/
def Hub.step (chrono : Chrono) (hub : Hub) : HubStep → Option Hub
  | .append today events => some { hub with archive := Act.perform chrono hub.archive (.append today events) }
  | .index today place =>
    match hub.job, (hub.archive.store.segment place).hot with
    | none, some lines => if place.2.1 < chrono.format today then some { hub with job := some (place, .indexed (buildIndex lines)) } else none
    | _, _ => none
  | .encode =>
    match hub.job with
    | some (place, .indexed idx) =>
      some { hub with job := (hub.archive.store.segment place).hot.map fun lines => (place, .staged idx lines) }
    | _ => none
  | .rename =>
    match hub.job with
    | some (place, .staged idx lines) =>
      some ⟨hub.archive.change place fun seg => { seg with cold := some lines }, some (place, .placed idx)⟩
    | _ => none
  | .writeIdx sidecar =>
    match hub.job with
    | some (place, .placed idx) =>
      some ⟨hub.archive.change place fun seg => { seg with idx := sidecar.leaves idx seg.idx }, some (place, .described)⟩
    | _ => none
  | .unlink removed =>
    match hub.job with
    | some (place, .described) =>
      some ⟨hub.archive.change place fun seg => { seg with hot := if removed then none else seg.hot }, none⟩
    | _ => none
  | .abandon => some { hub with job := none }
  | .removeDay node date => if hub.job.isNone then some { hub with archive := hub.archive.removeDay chrono node date } else none

/-- Every event is in its own segment as often as it was appended and in no other, and a search that has
room for it finds it. -/
structure Hub.Lossless (chrono : Chrono) (lower : String → String) (hub : Hub) : Prop where
  once : ∀ ev place, (hub.archive.store.segment place).content.count ev =
    if ev.place chrono 0 = place then hub.archive.stored.count ev else 0
  found : ∀ q : SearchQuery, (search chrono lower hub.archive.store q).truncated = false →
    (search chrono lower hub.archive.store q).events.length < q.bound →
      ∀ ev ∈ hub.archive.stored, q.Satisfied lower ev = true → ev ∈ (search chrono lower hub.archive.store q).events

/-- Events are appended that have a day, to files that have not been compacted and are not about to be. -/
def Undisturbed (chrono : Chrono) (hub : Hub) : HubStep → Prop
  | .append today events => Timely chrono hub.archive (.append today events) ∧
      ∀ job ∈ hub.job, ∀ ev ∈ events, ev.place chrono today ≠ job.1
  | _ => True

/-! ### What every step keeps -/

variable {chrono : Chrono} {lower : String → String} {hub after : Hub}

def Phase.Fits (seg : Segment) : Phase → Prop
  | .indexed idx => ∃ lines, seg.hot = some lines ∧ idx.Covers lines
  | .staged idx lines => seg.hot = some lines ∧ idx.Covers lines
  | .placed idx => ∃ lines, seg.hot = some lines ∧ seg.cold = some lines ∧ idx.Covers lines
  | .described => ∃ lines, seg.hot = some lines ∧ seg.cold = some lines

structure Hub.Sound (chrono : Chrono) (hub : Hub) : Prop where
  kept : hub.archive.Kept chrono
  fits : ∀ place phase, hub.job = some (place, phase) → phase.Fits (hub.archive.store.segment place)

theorem Archive.Kept.change {a : Archive} (kept : a.Kept chrono) {place : Place} {f : Segment → Segment}
    (settled : (f (a.store.segment place)).Settled) (same : (f (a.store.segment place)).content = (a.store.segment place).content) :
    (a.change place f).Kept chrono := by
  refine ⟨fun other => ?_, fun other => ?_, kept.dirs, kept.dated⟩ <;> dsimp only [Archive.change]
  · by_cases here : other = place
    · rw [here, Function.update_self]
      exact settled
    · rw [Function.update_of_ne here]
      exact kept.settled other
  · by_cases here : other = place
    · rw [here, Function.update_self, same]
      exact kept.content place
    · rw [Function.update_of_ne here]
      exact kept.content other

theorem Archive.Kept.removeDay {a : Archive} (kept : a.Kept chrono) (node date : String) :
    (a.removeDay chrono node date).Kept chrono := by
  constructor
  case settled =>
    intro place
    dsimp only [Archive.removeDay]
    split
    · exact ⟨fun _ _ impossible => (nomatch impossible), fun _ impossible => (nomatch impossible)⟩
    · exact kept.settled place
  case content =>
    intro place
    dsimp only [Archive.removeDay]
    rw [List.filter_filter]
    split
    · rename_i gone
      symm
      apply List.filter_eq_nil_iff.mpr
      intro ev _ both
      simp only [Bool.and_eq_true, decide_eq_true_eq] at both
      exact both.2 (both.1 ▸ gone)
    · rename_i stays
      rw [kept.content place]
      apply List.filter_congr
      intro ev _
      by_cases here : ev.place chrono 0 = place
      · simp [here, stays]
      · simp [here]
  case dirs =>
    intro ev member
    obtain ⟨among, other⟩ := List.mem_filter.mp member
    exact List.mem_filter.mpr ⟨kept.dirs ev among, other⟩
  case dated => exact fun ev member => kept.dated ev (List.mem_of_mem_filter member)

theorem Hub.Sound.change (sound : hub.Sound chrono) {place : Place} {f : Segment → Segment} {job : Option (Place × Phase)}
    (settled : (f (hub.archive.store.segment place)).Settled)
    (same : (f (hub.archive.store.segment place)).content = (hub.archive.store.segment place).content)
    (fits : ∀ at_ phase, job = some (at_, phase) → at_ = place ∧ phase.Fits (f (hub.archive.store.segment place))) :
    Hub.Sound chrono ⟨hub.archive.change place f, job⟩ := by
  refine ⟨sound.kept.change settled same, fun at_ phase under => ?_⟩
  obtain ⟨rfl, fit⟩ := fits at_ phase under
  have changed : (hub.archive.change at_ f).store.segment at_ = f (hub.archive.store.segment at_) := by
    simp only [Archive.change, Function.update_self]
  exact changed ▸ fit

theorem Hub.Sound.appendStep (sound : hub.Sound chrono) {today : Int} {events : List LogEvent}
    (undisturbed : Undisturbed chrono hub (.append today events))
    (stepped : hub.step chrono (.append today events) = some after) : after.Sound chrono := by
  cases stepped
  refine ⟨sound.kept.append undisturbed.1, fun place phase job => ?_⟩
  have apart : (events.filter fun ev => ev.place chrono today = place) = [] :=
    List.filter_eq_nil_iff.mpr fun ev member here => undisturbed.2 _ job ev member (of_decide_eq_true here)
  have same : (appendEvents chrono today events hub.archive.store).segment place = hub.archive.store.segment place := by
    dsimp only [appendEvents]
    rw [apart]
  exact same ▸ sound.fits place phase job

theorem Hub.Sound.indexStep (sound : hub.Sound chrono) {today : Int} {place : Place}
    (stepped : hub.step chrono (.index today place) = some after) : after.Sound chrono := by
  simp only [Hub.step] at stepped
  split at stepped
  · rename_i lines _ hot
    split at stepped
    · cases stepped
      refine ⟨sound.kept, ?_⟩
      rintro _ _ ⟨⟩
      exact ⟨lines, hot, buildIndex_covers lines⟩
    · cases stepped
  · cases stepped

theorem Hub.Sound.encodeStep (sound : hub.Sound chrono)
    (stepped : hub.step chrono .encode = some after) : after.Sound chrono := by
  simp only [Hub.step] at stepped
  split at stepped
  · rename_i place idx job
    cases stepped
    refine ⟨sound.kept, fun other phase staged => ?_⟩
    obtain ⟨lines, hot, covers⟩ := sound.fits place _ job
    rw [hot] at staged
    cases staged
    exact ⟨hot, covers⟩
  · cases stepped

theorem Hub.Sound.renameStep (sound : hub.Sound chrono)
    (stepped : hub.step chrono .rename = some after) : after.Sound chrono := by
  simp only [Hub.step] at stepped
  split at stepped
  · rename_i place idx lines job
    cases stepped
    obtain ⟨hot, covers⟩ := sound.fits place _ job
    have settled := sound.kept.settled place
    refine sound.change ?_ ?_ ?_
    · refine ⟨fun hot' cold there same => ?_, fun old there => ?_⟩
      · cases same
        exact Option.some.inj (there.symm.trans hot)
      · obtain ⟨cold, found, within⟩ := settled.index old there
        exact ⟨lines, rfl, settled.both lines cold hot found ▸ within⟩
    · rw [Segment.content, Segment.content, Segment.openReader, Segment.openReader, hot]
      cases cold : (hub.archive.store.segment place).cold with
      | none => rfl
      | some old => rw [settled.both lines old hot cold]
    · rintro _ _ ⟨⟩
      exact ⟨rfl, lines, hot, rfl, covers⟩
  · cases stepped

theorem Hub.Sound.writeIdxStep (sound : hub.Sound chrono) {sidecar : Sidecar}
    (stepped : hub.step chrono (.writeIdx sidecar) = some after) : after.Sound chrono := by
  simp only [Hub.step] at stepped
  split at stepped
  · rename_i place idx job
    cases stepped
    obtain ⟨lines, hot, cold, covers⟩ := sound.fits place _ job
    have settled := sound.kept.settled place
    refine sound.change ?_ rfl ?_
    · refine ⟨settled.both, fun idx' there => ?_⟩
      cases sidecar with
      | written =>
        cases there
        exact ⟨lines, cold, covers⟩
      | untouched => exact settled.index idx' there
      | torn => cases there
    · rintro _ _ ⟨⟩
      exact ⟨rfl, lines, hot, cold⟩
  · cases stepped

theorem Hub.Sound.unlinkStep (sound : hub.Sound chrono) {removed : Bool}
    (stepped : hub.step chrono (.unlink removed) = some after) : after.Sound chrono := by
  simp only [Hub.step] at stepped
  split at stepped
  · rename_i place job
    cases stepped
    obtain ⟨lines, hot, cold⟩ := sound.fits place _ job
    have settled := sound.kept.settled place
    refine sound.change ?_ ?_ fun _ _ impossible => by cases impossible
    · refine ⟨fun lines' cold' there same => ?_, settled.index⟩
      dsimp only at there
      split at there
      · cases there
      · exact settled.both lines' cold' there same
    · rw [Segment.content, Segment.content, Segment.openReader, Segment.openReader, cold]
      rfl
  · cases stepped

theorem Hub.Sound.removeDayStep (sound : hub.Sound chrono) {node date : String}
    (stepped : hub.step chrono (.removeDay node date) = some after) : after.Sound chrono := by
  simp only [Hub.step] at stepped
  split at stepped
  · rename_i idle
    cases stepped
    refine ⟨sound.kept.removeDay node date, fun place phase job => ?_⟩
    rw [Option.isNone_iff_eq_none.mp idle] at job
    cases job
  · cases stepped

theorem Hub.Sound.step (sound : hub.Sound chrono) {step : HubStep} (undisturbed : Undisturbed chrono hub step)
    (stepped : hub.step chrono step = some after) : after.Sound chrono := by
  cases step with
  | append today events => exact sound.appendStep undisturbed stepped
  | index today place => exact sound.indexStep stepped
  | encode => exact sound.encodeStep stepped
  | rename => exact sound.renameStep stepped
  | writeIdx sidecar => exact sound.writeIdxStep stepped
  | unlink removed => exact sound.unlinkStep stepped
  | abandon =>
    cases stepped
    exact ⟨sound.kept, fun _ _ impossible => by cases impossible⟩
  | removeDay node date => exact sound.removeDayStep stepped

theorem Hub.Sound.lossless (chronology : chrono.Sound) (sound : hub.Sound chrono) : hub.Lossless chrono lower := by
  have kept := sound.kept
  constructor
  case once =>
    intro ev place
    rw [kept.content place]
    split
    · rename_i here
      exact List.count_filter (decide_eq_true here)
    · rename_i elsewhere
      exact List.count_eq_zero.mpr fun member => elsewhere (of_decide_eq_true (List.mem_filter.mp member).2)
  case found =>
    intro q complete room ev stored satisfied
    rw [search_events] at room ⊢
    cases done : scan chrono lower hub.archive.store q with
    | error stopped =>
      simp only [search, done] at complete
      cases complete
    | ok done_ =>
      rw [done, List.length_take] at room
      rw [List.take_of_length_le (by omega)]
      refine (List.mergeSort_perm _ _).mem_iff.mpr ?_
      change ev ∈ done_.matched
      rw [SearchQuery.scan_ok done, List.mem_flatMap]
      rw [SearchQuery.satisfied_iff, Bool.and_eq_true] at satisfied
      obtain ⟨wanted, passes⟩ := satisfied
      refine ⟨ev.place chrono 0, (SearchQuery.visited kept stored).mpr ?_, ?_⟩
      · simp only [Bool.and_eq_true, Option.all_eq_true, decide_eq_true_eq] at wanted
        exact ⟨fun n asked => congrArg safeComponent (wanted.1 n asked), wanted.2⟩
      · rw [SearchQuery.part_filter chronology kept, kept.content]
        exact List.mem_filter.mpr ⟨List.mem_filter.mpr ⟨stored, decide_eq_true rfl⟩, passes⟩

/-- The janitor costs no event, wherever it stops, as long as no batch goes to a segment it has in hand. -/
theorem no_event_lost (chronology : chrono.Sound) {steps : List HubStep}
    (along : Along (Hub.step chrono) (Undisturbed chrono) steps ⟨.empty, none⟩)
    (ran : runSteps (Hub.step chrono) steps ⟨.empty, none⟩ = some hub) : hub.Lossless chrono lower := by
  have sound : hub.Sound chrono := along.invariant ⟨empty_kept, fun _ _ impossible => by cases impossible⟩
    (fun _ _ _ kept undisturbed stepped => kept.step undisturbed stepped) ran
  exact sound.lossless chronology

def firstEvent : LogEvent := sampleEvent "web-1" ⟨1000, by decide⟩

def lateEvent : LogEvent := sampleEvent "web-1" ⟨3000, by decide⟩

/-- The file of the first day is compacted on the second, with a batch after its lines were copied. -/
def compacting (between : List LogEvent) : List HubStep :=
  [.append 0 [firstEvent], .index 1 (firstEvent.place sampleChrono 0), .encode, .append 1 between, .rename, .writeIdx .written, .unlink true]

instance (chrono : Chrono) (hub : Hub) : (step : HubStep) → Decidable (Undisturbed chrono hub step)
  | .append today events => inferInstanceAs (Decidable ((∀ ev ∈ events, (chrono.dayOf ev.ts).isSome ∧
        (hub.archive.store.segment (ev.place chrono today)).cold = none) ∧
      ∀ job ∈ hub.job, ∀ ev ∈ events, ev.place chrono today ≠ job.1))
  | .index _ _ | .encode | .rename | .writeIdx _ | .unlink _ | .abandon | .removeDay _ _ => isTrue trivial

def otherEvent : LogEvent := sampleEvent "web-2" ⟨2000, by decide⟩

def nextEvent : LogEvent := sampleEvent "web-1" ⟨90000000, by decide⟩

/-- Two nodes' files of the first day are compacted on the second, while that day's events arrive. The
janitor is stopped once, leaves one file's sidecar torn and its lines in place and takes it up again. -/
def twoFiles : List HubStep :=
  [.append 0 [firstEvent, otherEvent], .index 1 (firstEvent.place sampleChrono 0), .append 0 [otherEvent], .encode,
    .append 1 [nextEvent], .rename, .writeIdx .torn, .unlink false, .index 1 (firstEvent.place sampleChrono 0), .encode,
    .abandon, .index 1 (firstEvent.place sampleChrono 0), .encode, .rename, .append 1 [nextEvent, otherEvent], .writeIdx .written,
    .unlink true, .index 1 (otherEvent.place sampleChrono 0), .encode, .rename, .writeIdx .untouched, .unlink true]

theorem no_event_lost_sample : ∃ hub, runSteps (Hub.step sampleChrono) twoFiles ⟨.empty, none⟩ = some hub ∧
    hub.archive.stored.length = 6 ∧ hub.Lossless sampleChrono String.toLower := by
  have along : Along (Hub.step sampleChrono) (Undisturbed sampleChrono) twoFiles ⟨.empty, none⟩ := by decide +kernel
  have checked : (runSteps (Hub.step sampleChrono) twoFiles ⟨.empty, none⟩).any (fun hub => hub.archive.stored.length = 6) = true := by
    decide +kernel
  obtain ⟨hub, ran, six⟩ := (Option.any_eq_true _ _).mp checked
  exact ⟨hub, ran, of_decide_eq_true six, no_event_lost sampleChrono_sound along ran⟩

theorem batch_in_between_lost : ¬∀ steps hub, runSteps (Hub.step sampleChrono) steps ⟨.empty, none⟩ = some hub →
    hub.Lossless sampleChrono String.toLower := by
  intro lossless
  have lost : (runSteps (Hub.step sampleChrono) (compacting [lateEvent]) ⟨.empty, none⟩).any (fun hub =>
      (hub.archive.store.segment (lateEvent.place sampleChrono 0)).content.count lateEvent = 0 ∧
        hub.archive.stored.count lateEvent = 1) = true := by decide +kernel
  obtain ⟨hub, ran, counts⟩ := (Option.any_eq_true _ _).mp lost
  have once := (lossless _ hub ran).once lateEvent (lateEvent.place sampleChrono 0)
  simp only [decide_eq_true_eq] at counts
  rw [counts.1, if_pos rfl, counts.2] at once
  cases once

end LogHub
