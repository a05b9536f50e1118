import WolfStack.Auth.ClusterSecret
import WolfStack.LogHub.Search
import WolfStack.Text.Slices

/-! The shipper of a node, after `loghub/shipper.rs`: what it takes out of the journal and what becomes
of it on the way to the hub. Does every entry get there, in its order, and once? The redactor's
expressions are a parameter; what containers have logged comes along as it is. -/

open scoped List

namespace LogHub

/-- An entry of the journal with the fields that are read. -/
structure JournalEntry where
  message : Option String
  ts : Int
  units : List String
  priority : Option String
  lowest : i64Min ≤ ts
  highest : ts ≤ i64Max

structure ShipConfig where
  nodeId : String
  unitDenylist : List String
  redact : String → String

@[irreducible] def maxLinesPerRound : Nat := 50000
@[irreducible] def spoolMax : Nat := 100000
@[irreducible] def sendChunk : Nat := 10000
def maxMsgLen : Nat := 16 * 1024

/-! ### Collection -/

/-- The cut is moved back to the beginning of a character. -/
def floorBytes : Nat → List Char → List Char
  | _, [] => []
  | n, c :: rest => if c.utf8Size ≤ n then c :: floorBytes (n - c.utf8Size) rest else []

def capMsg (s : String) : String :=
  if maxMsgLen < Text.byteLen s.toList then String.ofList (floorBytes maxMsgLen s.toList) ++ "…[truncated]" else s

def denylisted (unit : String) (cfg : ShipConfig) : Bool := cfg.unitDenylist.any fun d => d ≠ "" && containsText unit d

def LogLevel.fromPriority (p : String) : LogLevel :=
  match Auth.trim p with
  | "0" => .emerg
  | "1" => .alert
  | "2" => .crit
  | "3" => .error
  | "4" => .warning
  | "5" => .notice
  | "6" => .info
  | "7" => .debug
  | _ => .unknown

def extractUnit (v : JournalEntry) : String := (v.units.find? fun unit => unit ≠ "").getD "unknown"

def valueToEvent (cfg : ShipConfig) (v : JournalEntry) : Option LogEvent :=
  match v.message with
  | none => none
  | some msgRaw =>
    let unit := extractUnit v
    if denylisted unit cfg then none else some {
      ts := v.ts, node := cfg.nodeId, source := .journald, unit, level := (v.priority.map LogLevel.fromPriority).getD .unknown,
      msg := capMsg (cfg.redact msgRaw), fields := [], lowest := v.lowest, highest := v.highest }

/-- How a call of `journalctl` ends. Without a cursor it lists from some entry on. -/
inductive Listing where
  | failed
  | listed (since : Nat)

/-- A cursor is the number of entries that it is behind. -/
def journalctlJson (journal : List JournalEntry) (cursor : Option Nat) : Listing → List JournalEntry × Option Nat
  | .failed => ([], none)
  | .listed since =>
    let start := cursor.getD since
    let vals := (journal.drop start).take maxLinesPerRound
    (vals, if vals = [] then cursor else some (start + vals.length))

/-! ### Delivery -/

/-- What becomes of one request to the hub. When no success is heard some of its events may have been
written all the same. -/
inductive Reply where
  | success
  | unheard (written : LogEvent → Bool)
  | diskFull

/-- Whether the events are with the hub as far as the node knows, and what the hub has written. -/
def postToHub (events : List LogEvent) : List Reply → Bool × List LogEvent
  | [] => (false, [])
  | .success :: _ => (true, events)
  | .unheard written :: urls => ((postToHub events urls).1, events.filter written ++ (postToHub events urls).2)
  | .diskFull :: _ => (false, [])

/-- What the hub has written of the chunks, and the events from the first chunk on that failed. -/
def sendChunks (replies : Nat → List Reply) (chunk : Nat) (toSend : List LogEvent) : List LogEvent × List LogEvent :=
  if toSend = [] then ([], [])
  else
    let posted := postToHub (toSend.take sendChunk) (replies chunk)
    if posted.1 then
      let rest := sendChunks replies (chunk + 1) (toSend.drop sendChunk)
      (posted.2 ++ rest.1, rest.2)
    else (posted.2, toSend)
termination_by toSend.length
decreasing_by
  have := List.length_pos_iff.mpr ‹¬toSend = []›
  rw [List.length_drop, sendChunk]
  omega

inductive HubTarget where
  | selfLocal
  | remote
  | none
deriving DecidableEq

def resolveHub (nodeId : String) (hubNodeId : Option String) (nodes : List String) : HubTarget :=
  match hubNodeId with
  | .none => .none
  | some hubId => if hubId = nodeId then .selfLocal else if hubId ∈ nodes then .remote else .none

/-- A round: what the containers have logged, and what it meets with. -/
structure Round where
  journald : Option Listing
  others : List LogEvent
  containers : ∀ ev ∈ others, ev.source ≠ .journald
  hubNodeId : Option String
  nodes : List String
  ingestBlocked : Bool
  appendFails : Option (LogEvent → Bool)
  replies : Nat → List Reply

/-- The node and what the hub has written for it. What was collected is noted beside. -/
structure Shipping where
  journal : List JournalEntry
  cursor : Option Nat
  spool : List LogEvent
  dropped : Nat
  hub : List LogEvent
  collected : List LogEvent

def Shipping.requeue (s : Shipping) (events : List LogEvent) : Shipping := { s with
  spool := (s.spool ++ events).drop ((s.spool ++ events).length - spoolMax)
  dropped := s.dropped + ((s.spool ++ events).length - spoolMax) }

def Shipping.deliver (cfg : ShipConfig) (s : Shipping) (round : Round) (batch : List LogEvent) : Shipping :=
  if batch = [] ∧ s.spool = [] then s
  else
    let toSend := s.spool ++ batch
    let s := { s with spool := [] }
    match resolveHub cfg.nodeId round.hubNodeId round.nodes with
    | .selfLocal =>
      if round.ingestBlocked then s.requeue toSend
      else
        match round.appendFails with
        | none => { s with hub := s.hub ++ toSend }
        | some written => { s with hub := s.hub ++ toSend.filter written }.requeue toSend
    | .remote =>
      let sent := sendChunks round.replies 0 toSend
      { s with hub := s.hub ++ sent.1 }.requeue sent.2
    | .none => s.requeue toSend

/-- What may come next: the journal grows, or a round finds the shipper switched on or off. -/
inductive Shipment where
  | logged (entries : List JournalEntry)
  | round (round : Round)
  | disabled

def Shipping.step (cfg : ShipConfig) (s : Shipping) : Shipment → Shipping
  | .logged entries => { s with journal := s.journal ++ entries }
  | .round round =>
    let (vals, cursor) := (round.journald.map (journalctlJson s.journal s.cursor)).getD ([], s.cursor)
    let batch := vals.filterMap (valueToEvent cfg) ++ round.others
    { s with cursor, collected := s.collected ++ batch }.deliver cfg round batch
  | .disabled => { s with cursor := none, spool := [] }

/-- `journalctl` is not asked in vain, and the shipper stays on. -/
def Shipment.Steady : Shipment → Prop
  | .round r => r.journald ≠ some .failed
  | .logged _ => True
  | .disabled => False

/-- Nothing is written without the node hearing of it. -/
def Shipment.Heard : Shipment → Prop
  | .round r => (∀ chunk written, .unheard written ∈ r.replies chunk → written = fun _ => false) ∧
      ∀ written, r.appendFails = some written → written = fun _ => false
  | .logged _ | .disabled => True

/-- How an event leaves the spool: to the hub, over its end, or with all of it when the shipper is off. -/
inductive Departure where
  | delivered
  | dropped
  | cleared
deriving DecidableEq

def departed (how : Departure) (gone : List (LogEvent × Departure)) : List LogEvent := (gone.filter fun item => item.2 = how).map Prod.fst

/-- The events that have left the spool, in the order in which they were collected, and how. -/
structure Shipping.Accounts (s : Shipping) (gone : List (LogEvent × Departure)) : Prop where
  all : s.collected = gone.map Prod.fst ++ s.spool
  counted : s.dropped = (departed .dropped gone).length
  bounded : s.spool.length ≤ spoolMax
  stored : departed .delivered gone <+ s.hub

/-- The journal has been read up to the cursor, and what was read of it from the start on was collected. -/
structure Shipping.Tracked (cfg : ShipConfig) (start : Nat) (s : Shipping) (cursor : Nat) : Prop where
  known : s.cursor = some cursor
  within : start ≤ cursor ∧ cursor ≤ s.journal.length
  collected : s.collected.filter (fun ev => ev.source = .journald) = ((s.journal.take cursor).drop start).filterMap (valueToEvent cfg)

/-- A node that has just seen its first entries. -/
def Shipping.begun (seen rest : List JournalEntry) : Shipping := ⟨seen ++ rest, some seen.length, [], 0, [], []⟩

/-! ### What a round does -/

variable {cfg : ShipConfig} {s : Shipping} {gone : List (LogEvent × Departure)}

theorem postToHub_sent {events : List LogEvent} {replies : List Reply} (sent : (postToHub events replies).1 = true) :
    events <+ (postToHub events replies).2 := by
  induction replies with
  | nil => cases sent
  | cons reply urls ih =>
    cases reply with
    | success => exact List.Sublist.refl _
    | unheard written => exact (ih sent).trans (List.sublist_append_right _ _)
    | diskFull => cases sent

theorem postToHub_heard {events : List LogEvent} {replies : List Reply}
    (heard : ∀ written, .unheard written ∈ replies → written = fun _ => false) :
    (postToHub events replies).2 = if (postToHub events replies).1 = true then events else [] := by
  induction replies with
  | nil => rfl
  | cons reply urls ih =>
    cases reply with
    | success => rfl
    | unheard written =>
      obtain rfl := heard written List.mem_cons_self
      rw [postToHub, List.filter_false, List.nil_append]
      exact ih fun written member => heard written (List.mem_cons_of_mem _ member)
    | diskFull => rfl

/-- What is left is the end of what there was, and the hub has written what came before it. -/
theorem sendChunks_split (replies : Nat → List Reply) (chunk : Nat) (toSend : List LogEvent) :
    ∃ sent, toSend = sent ++ (sendChunks replies chunk toSend).2 ∧ sent <+ (sendChunks replies chunk toSend).1 ∧
      ((∀ chunk written, .unheard written ∈ replies chunk → written = fun _ => false) → (sendChunks replies chunk toSend).1 = sent) := by
  fun_induction sendChunks replies chunk toSend with
  | case1 => exact ⟨[], rfl, List.nil_sublist _, fun _ => rfl⟩
  | case2 chunk toSend some_ posted sent rest ih =>
    obtain ⟨later, split, stored, same⟩ := ih
    refine ⟨toSend.take sendChunk ++ later, ?_, (postToHub_sent sent).append stored, fun heard => ?_⟩
    · rw [List.append_assoc, ← split, List.take_append_drop]
    · dsimp only
      rw [same heard]
      exact congrArg (· ++ later) ((postToHub_heard (heard chunk)).trans (if_pos sent))
  | case3 chunk toSend some_ posted failed =>
    exact ⟨[], rfl, List.nil_sublist _, fun heard => (postToHub_heard (heard chunk)).trans (if_neg failed)⟩

-- The fields are named first: compared as they stand, the numbers would be counted down.
theorem requeue_same (s : Shipping) (events : List LogEvent) : (s.requeue events).journal = s.journal ∧
    (s.requeue events).cursor = s.cursor ∧ (s.requeue events).hub = s.hub ∧ (s.requeue events).collected = s.collected := by
  cases s
  exact ⟨rfl, rfl, rfl, rfl⟩

theorem requeue_nil (empty : s.spool = []) : s.requeue [] = s := by
  cases s
  obtain rfl : _ = [] := empty
  simp [Shipping.requeue]

/-- Some of what was to be sent is with the hub, and the rest goes back to the spool. -/
theorem deliver_split (cfg : ShipConfig) (s : Shipping) (round : Round) (batch : List LogEvent) : ∃ sent left written,
    s.spool ++ batch = sent ++ left ∧ sent <+ written ∧ ((Shipment.round round).Heard → written = sent) ∧
      s.deliver cfg round batch = { s with spool := [], hub := s.hub ++ written }.requeue left := by
  have back : { s with spool := [] }.requeue (s.spool ++ batch) = { s with spool := [], hub := s.hub ++ [] }.requeue (s.spool ++ batch) := by
    rw [List.append_nil]
  unfold Shipping.deliver
  split
  · rename_i nothing
    refine ⟨[], [], [], by rw [nothing.1, nothing.2], List.Sublist.refl _, fun _ => rfl, ?_⟩
    rw [List.append_nil, requeue_nil rfl, ← nothing.2]
  · dsimp only
    split
    · split
      · exact ⟨[], _, [], rfl, List.Sublist.refl _, fun _ => rfl, back⟩
      · split
        · exact ⟨_, [], _, (List.append_nil _).symm, List.Sublist.refl _, fun _ => rfl, (requeue_nil rfl).symm⟩
        · rename_i written fails
          refine ⟨[], _, _, rfl, List.nil_sublist _, fun heard => ?_, rfl⟩
          rw [heard.2 written fails, List.filter_false]
    · obtain ⟨sent, split, within, same⟩ := sendChunks_split round.replies 0 (s.spool ++ batch)
      exact ⟨sent, _, _, split, within, fun heard => same heard.1, rfl⟩
    · exact ⟨[], _, [], rfl, List.Sublist.refl _, fun _ => rfl, back⟩

theorem departed_map (how other : Departure) (events : List LogEvent) :
    departed how (events.map (·, other)) = if other = how then events else [] := by
  by_cases same : other = how <;> simp [departed, List.filter_map, Function.comp_def, same]

theorem departed_append (how : Departure) (gone later : List (LogEvent × Departure)) :
    departed how (gone ++ later) = departed how gone ++ departed how later := by
  rw [departed, List.filter_append, List.map_append]
  rfl

theorem marks (sent dropped : List LogEvent) :
    (sent.map (·, Departure.delivered) ++ dropped.map (·, Departure.dropped)).map Prod.fst = sent ++ dropped ∧
    departed .delivered (sent.map (·, .delivered) ++ dropped.map (·, .dropped)) = sent ∧
    departed .dropped (sent.map (·, .delivered) ++ dropped.map (·, .dropped)) = dropped := by
  simp [departed_append, departed_map, Function.comp_def]

theorem Shipping.Accounts.step (accounts : s.Accounts gone) (shipment : Shipment) : ∃ later, (s.step cfg shipment).Accounts (gone ++ later) ∧
    (shipment.Heard → (s.step cfg shipment).hub = s.hub ++ departed .delivered later) := by
  cases shipment with
  | logged entries =>
    refine ⟨[], ?_, fun _ => (List.append_nil _).symm⟩
    rw [List.append_nil]
    exact ⟨accounts.all, accounts.counted, accounts.bounded, accounts.stored⟩
  | round round =>
    simp only [Shipping.step]
    generalize (round.journald.map (journalctlJson s.journal s.cursor)).getD ([], s.cursor) = listing
    generalize listing.1.filterMap (valueToEvent cfg) ++ round.others = batch
    obtain ⟨sent, left, written, split, within, heard, delivered⟩ :=
      deliver_split cfg { s with cursor := listing.2, collected := s.collected ++ batch } round batch
    obtain ⟨marked, kept, lost⟩ := marks sent (left.take (left.length - spoolMax))
    rw [delivered]
    refine ⟨sent.map (·, .delivered) ++ (left.take (left.length - spoolMax)).map (·, Departure.dropped), ⟨?_, ?_, ?_, ?_⟩, fun hears => ?_⟩
    · rw [(requeue_same _ _).2.2.2, Shipping.requeue, List.nil_append, List.map_append, marked, List.append_assoc, List.append_assoc,
        List.take_append_drop, ← split, ← List.append_assoc, ← accounts.all]
    · rw [Shipping.requeue, List.nil_append, departed_append, List.length_append, lost, List.length_take, Nat.min_eq_left (Nat.sub_le _ _)]
      exact congrArg (· + _) accounts.counted
    · rw [Shipping.requeue, List.nil_append, List.length_drop]
      omega
    · rw [(requeue_same _ _).2.2.1, departed_append, kept]
      exact accounts.stored.append within
    · rw [(requeue_same _ _).2.2.1, kept, heard hears]
  | disabled =>
    refine ⟨s.spool.map (·, .cleared), ⟨?_, ?_, Nat.zero_le _, ?_⟩, fun _ => ?_⟩
    · simpa [Shipping.step, Function.comp_def] using accounts.all
    · simpa [Shipping.step, departed_append, departed_map] using accounts.counted
    · simpa [Shipping.step, departed_append, departed_map] using accounts.stored
    · simp [Shipping.step, departed_map]

/-! ### What was read of the journal -/

/-- What is listed after a cursor, and the cursor behind it. -/
theorem journalctlJson_listed (journal : List JournalEntry) {cursor : Nat} (within : cursor ≤ journal.length) (since : Nat) :
    ∃ vals next, journalctlJson journal (some cursor) (.listed since) = (vals, some next) ∧ (cursor ≤ next ∧ next ≤ journal.length) ∧
      journal.take next = journal.take cursor ++ vals := by
  have number : ((journal.drop cursor).take maxLinesPerRound).length = min maxLinesPerRound (journal.length - cursor) := by
    rw [List.length_take, List.length_drop]
  refine ⟨(journal.drop cursor).take maxLinesPerRound, cursor + ((journal.drop cursor).take maxLinesPerRound).length, ?_, by omega, ?_⟩
  · dsimp only [journalctlJson, Option.getD_some]
    split
    · rename_i nothing
      rw [nothing]
      rfl
    · rfl
  · rw [List.take_add, number, ← List.length_drop, ← List.take_eq_take_min]

theorem journald_collected (cfg : ShipConfig) (vals : List JournalEntry) (round : Round) :
    (vals.filterMap (valueToEvent cfg) ++ round.others).filter (fun ev => ev.source = .journald) = vals.filterMap (valueToEvent cfg) := by
  have foreign : round.others.filter (fun ev => ev.source = .journald) = [] :=
    List.filter_eq_nil_iff.mpr fun ev member here => round.containers ev member (of_decide_eq_true here)
  rw [List.filter_append, foreign, List.append_nil]
  refine List.filter_eq_self.mpr fun ev member => decide_eq_true ?_
  obtain ⟨v, -, made⟩ := List.mem_filterMap.mp member
  unfold valueToEvent at made
  split at made
  · cases made
  · dsimp only at made
    split at made <;> cases made
    rfl

theorem Shipping.Tracked.round {start cursor : Nat} (tracked : s.Tracked cfg start cursor) {round : Round} {vals : List JournalEntry} {next : Nat}
    (collects : (round.journald.map (journalctlJson s.journal s.cursor)).getD ([], s.cursor) = (vals, some next))
    (behind : cursor ≤ next ∧ next ≤ s.journal.length) (read : s.journal.take next = s.journal.take cursor ++ vals) :
    (s.step cfg (.round round)).Tracked cfg start next := by
  have own := journald_collected cfg vals round
  simp only [Shipping.step, collects]
  generalize vals.filterMap (valueToEvent cfg) ++ round.others = batch at own ⊢
  obtain ⟨sent, left, written, -, -, -, delivered⟩ := deliver_split cfg { s with cursor := some next, collected := s.collected ++ batch } round batch
  rw [delivered]
  refine ⟨(requeue_same _ _).2.1, ⟨tracked.within.1.trans behind.1, ?_⟩, ?_⟩
  · rw [(requeue_same _ _).1]
    exact behind.2
  · have long : start ≤ (s.journal.take cursor).length := by
      have within := tracked.within
      rw [List.length_take]
      omega
    rw [(requeue_same _ _).2.2.2, (requeue_same _ _).1]
    dsimp only
    rw [List.filter_append, tracked.collected, own, read, List.drop_append_of_le_length long, List.filterMap_append]

theorem Shipping.Tracked.step {start cursor : Nat} (tracked : s.Tracked cfg start cursor) {shipment : Shipment} (steady : shipment.Steady) :
    ∃ next, (s.step cfg shipment).Tracked cfg start next := by
  cases shipment with
  | logged entries =>
    refine ⟨cursor, tracked.known, ⟨tracked.within.1, ?_⟩, ?_⟩ <;> dsimp only [Shipping.step]
    · rw [List.length_append]
      exact Nat.le_add_right_of_le tracked.within.2
    · rw [List.take_append_of_le_length tracked.within.2]
      exact tracked.collected
  | round round =>
    cases asked : round.journald with
    | none => exact ⟨cursor, tracked.round (by rw [asked, tracked.known]; rfl) ⟨le_refl _, tracked.within.2⟩ (List.append_nil _).symm⟩
    | some listing =>
      cases listing with
      | failed => exact absurd asked steady
      | listed since =>
        obtain ⟨vals, next, lists, behind, read⟩ := journalctlJson_listed s.journal tracked.within.2 since
        exact ⟨next, tracked.round (by rw [asked, tracked.known]; exact lists) behind read⟩
  | disabled => exact steady.elim

/-! ### Every run -/

end LogHub
