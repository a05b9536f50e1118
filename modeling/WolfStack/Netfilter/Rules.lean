import Mathlib.Data.List.Basic
import Mathlib.Data.List.Nodup
import Mathlib.Data.List.Forall2

/-! Packet filters as chains of rules. A rule is the list of its options: a packet matches it when
every one of them holds, and the first matching rule that has a verdict decides. -/

namespace Netfilter

inductive End where
  | source
  | destination
deriving DecidableEq, Repr

inductive Proto where
  | tcp
  | udp
  | icmp
deriving DecidableEq, Repr

inductive Transport where
  | tcp (source destination : BitVec 16)
  | udp (source destination : BitVec 16)
  | icmp
  | other
deriving DecidableEq, Repr

namespace Transport

def proto : Transport → Option Proto
  | tcp _ _ => some .tcp
  | udp _ _ => some .udp
  | icmp => some .icmp
  | other => none

def port : Transport → End → Option (BitVec 16)
  | tcp source _, .source | udp source _, .source => some source
  | tcp _ destination, .destination | udp _ destination, .destination => some destination
  | _, _ => none

end Transport

inductive State where
  | new
  | established
  | related
  | invalid
deriving DecidableEq, Repr

/-- A packet on its way in has come from an interface, one on its way out goes to one, and one that is
forwarded has both. -/
structure Packet where
  source : BitVec 32
  destination : BitVec 32
  inInterface : Option (List Char)
  outInterface : Option (List Char)
  transport : Transport
  state : State
deriving DecidableEq, Repr

namespace Packet

def address (p : Packet) : End → BitVec 32
  | .source => p.source
  | .destination => p.destination

def interface (p : Packet) : End → Option (List Char)
  | .source => p.inInterface
  | .destination => p.outInterface

end Packet

/-! ### Rules -/

/-- The addresses that begin with the same bits. -/
structure Network where
  base : BitVec 32
  length : Nat
deriving DecidableEq, Repr

def Network.contains (n : Network) (a : BitVec 32) : Bool := a >>> (32 - n.length) == n.base >>> (32 - n.length)

theorem contains_host (base a : BitVec 32) : (Network.mk base 32).contains a = true ↔ a = base := by
  simp [Network.contains]

inductive Target where
  | accept
  | drop
  | reject
  | leave
  | nflog
  | chain (name : List Char)
deriving DecidableEq, Repr

inductive Extension where
  | ports
  | conntrack
  | set
  | nflog
deriving DecidableEq, Repr

inductive Flag where
  | proto
  | address (e : End)
  | interface (e : End)
  | port (e : End)
  | load
  | ctstate
  | matchSet
  | jump
  | nflogGroup
  | nflogPrefix
deriving DecidableEq, Repr

/-- Where an option stands in a rule that is written in the usual order. -/
def Flag.rank : Flag → Nat
  | proto => 0
  | address .source | interface .source => 1
  | address .destination | interface .destination => 2
  | port _ => 3
  | load | ctstate | matchSet => 4
  | jump | nflogGroup | nflogPrefix => 5

inductive Opt where
  | proto (p : Proto)
  | address (e : End) (network : Network)
  | interface (e : End) (name : List Char)
  | port (e : End) (low high : Nat)
  | load (extension : Extension)
  | ctstate (states : List State)
  | matchSet (name : List Char) (e : End)
  | jump (target : Target)
  | nflogGroup (group : Nat)
  | nflogPrefix (text : List Char)
deriving DecidableEq, Repr

abbrev Rule := List Opt

abbrev Sets := List Char → BitVec 32 → Bool

namespace Opt

def flag : Opt → Flag
  | proto _ => .proto
  | address e _ => .address e
  | interface e _ => .interface e
  | port e _ _ => .port e
  | load _ => .load
  | ctstate _ => .ctstate
  | matchSet _ _ => .matchSet
  | jump _ => .jump
  | nflogGroup _ => .nflogGroup
  | nflogPrefix _ => .nflogPrefix

/-- Naming a protocol that has ports, and a target with options of its own, loads these options too. -/
def loads : Opt → List Extension
  | proto .tcp | proto .udp => [.ports]
  | load extension => [extension]
  | jump .nflog => [.nflog]
  | _ => []

def needs : Opt → Option Extension
  | port _ _ _ => some .ports
  | ctstate _ => some .conntrack
  | matchSet _ _ => some .set
  | nflogGroup _ | nflogPrefix _ => some .nflog
  | _ => none

def target : Opt → Option Target
  | jump target => some target
  | _ => none

def group : Opt → Option Nat
  | nflogGroup group => some group
  | _ => none

def text : Opt → Option (List Char)
  | nflogPrefix text => some text
  | _ => none

/-- A name that ends in a plus sign stands for all that begin with the rest of it. -/
def namesInterface (name : List Char) (interface : Option (List Char)) : Bool :=
  if name.getLast? = some '+' then name.dropLast.isPrefixOf (interface.getD []) else interface = some name

def holds (sets : Sets) (p : Packet) : Opt → Bool
  | proto required => p.transport.proto = some required
  | address e network => network.contains (p.address e)
  | interface e name => namesInterface name (p.interface e)
  | port e low high => (p.transport.port e).any fun port => low ≤ port.toNat && port.toNat ≤ high
  | ctstate states => p.state ∈ states
  | matchSet name e => sets name (p.address e)
  | _ => true

end Opt

namespace Rule

def matches_ (sets : Sets) (p : Packet) (rule : Rule) : Bool := rule.all (Opt.holds sets p)

def target (rule : Rule) : Option Target := rule.findSome? Opt.target

/-- What is logged of a packet: the group that is told, and what the entry begins with. -/
def record (rule : Rule) : Nat × List Char := ((rule.findSome? Opt.group).getD 0, (rule.findSome? Opt.text).getD [])

/-- Each option that a rule has comes after what it needs, and is given once. -/
def ordered (loaded : List Extension) : Rule → Bool
  | [] => true
  | o :: rest => o.needs.all (· ∈ loaded) && ordered (o.loads ++ loaded) rest

def sound (rule : Rule) : Bool := ordered [] rule && decide ((rule.map Opt.flag).filter (· ≠ .load)).Nodup

end Rule

namespace Rule

theorem matches_append (sets : Sets) (p : Packet) (first second : Rule) :
    matches_ sets p (first ++ second) = (matches_ sets p first && matches_ sets p second) := List.all_append

theorem ordered_mono {loaded more : List Extension} {rule : Rule} (sound : ordered loaded rule = true) (enough : ∀ e ∈ loaded, e ∈ more) :
    ordered more rule = true := by
  induction rule generalizing loaded more with
  | nil => rfl
  | cons o rest ih =>
    obtain ⟨first, later⟩ := Bool.and_eq_true_iff.mp sound
    refine Bool.and_eq_true_iff.mpr ⟨?_, ih later ?_⟩
    · rw [Option.all_eq_true] at first ⊢
      exact fun e needed => decide_eq_true (enough e (of_decide_eq_true (first e needed)))
    · intro e member
      rcases List.mem_append.mp member with here | before
      · exact List.mem_append_left _ here
      · exact List.mem_append_right _ (enough e before)

theorem ordered_append {loaded have_ : List Extension} {first second : Rule} (one : ordered loaded first = true)
    (two : ordered have_ second = true) (enough : ∀ e ∈ have_, e ∈ loaded ∨ ∃ o ∈ first, e ∈ o.loads) :
    ordered loaded (first ++ second) = true := by
  induction first generalizing loaded with
  | nil => exact ordered_mono two fun e member => (enough e member).resolve_right nofun
  | cons o rest ih =>
    obtain ⟨here, later⟩ := Bool.and_eq_true_iff.mp one
    refine Bool.and_eq_true_iff.mpr ⟨here, ih later fun e member => ?_⟩
    rcases enough e member with before | ⟨other, inside, loads⟩
    · exact .inl (List.mem_append_right _ before)
    · rcases List.mem_cons.mp inside with rfl | behind
      · exact .inl (List.mem_append_left _ loads)
      · exact .inr ⟨other, behind, loads⟩

theorem ordered_loaded {loaded : List Extension} {rule : Rule} (all : ∀ o ∈ rule, ∀ e ∈ o.needs, e ∈ loaded) : ordered loaded rule = true := by
  induction rule with
  | nil => rfl
  | cons o rest ih =>
    refine Bool.and_eq_true_iff.mpr ⟨?_, ordered_mono (ih fun o member => all o (List.mem_cons_of_mem _ member)) ?_⟩
    · rw [Option.all_eq_true]
      exact fun e needed => decide_eq_true (all o List.mem_cons_self e needed)
    · exact fun e member => List.mem_append_right _ member

end Rule

theorem nodup_ranked {α : Type} (rank : α → Nat) {ranks : List Nat} {segments : List (List α)} (sorted : ranks.Pairwise (· < ·))
    (ranked : List.Forall₂ (fun i segment => segment.Nodup ∧ ∀ a ∈ segment, rank a = i) ranks segments) : segments.flatten.Nodup := by
  induction ranked with
  | nil => exact List.nodup_nil
  | @cons i segment ranks segments first later ih =>
    obtain ⟨least, rest⟩ := List.pairwise_cons.mp sorted
    have above : ∀ b ∈ segments.flatten, rank b ∈ ranks := by
      clear ih least rest sorted
      induction later with
      | nil => exact nofun
      | @cons j next ranks segments here _ ih =>
        intro b member
        rcases List.mem_append.mp member with inside | behind
        · rw [here.2 b inside]
          exact List.mem_cons_self
        · exact List.mem_cons_of_mem _ (ih b behind)
    rw [List.flatten_cons]
    refine List.nodup_append.mpr ⟨first.1, ih rest, fun a inside b behind same => ?_⟩
    have below := least _ (above b behind)
    rw [← same, first.2 a inside] at below
    exact absurd below (Nat.lt_irrefl i)

namespace Rule

theorem sound_ranked (ranks : List Nat) {segments : List Rule} (sorted : ranks.Pairwise (· < ·))
    (ranked : List.Forall₂ (fun i (segment : Rule) => ((segment.map Opt.flag).filter (· ≠ .load)).Nodup ∧
      ∀ o ∈ segment, o.flag.rank = i) ranks segments)
    (inOrder : ordered [] segments.flatten = true) : sound segments.flatten = true := by
  refine Bool.and_eq_true_iff.mpr ⟨inOrder, decide_eq_true ?_⟩
  rw [List.map_flatten, List.filter_flatten, List.map_map]
  refine nodup_ranked Flag.rank sorted ?_
  rw [List.forall₂_map_right_iff]
  refine ranked.imp fun i segment ⟨single, ranks⟩ => ⟨single, fun flag member => ?_⟩
  obtain ⟨o, inside, rfl⟩ := List.mem_map.mp (List.mem_of_mem_filter member)
  exact ranks o inside

def Tests (rule : Rule) : Prop := ∀ o ∈ rule, o.flag.rank < 5

theorem findSome_tests {α : Type} {f : Opt → Option α} {tests : Rule} (only : tests.Tests) (later : ∀ o, o.flag.rank < 5 → f o = none) (rest : Rule) :
    (tests ++ rest).findSome? f = rest.findSome? f := by
  rw [List.findSome?_append, List.findSome?_eq_none_iff.mpr fun o member => later o (only o member), Option.none_or]

theorem target_tests {tests : Rule} (only : tests.Tests) (rest : Rule) : target (tests ++ rest) = target rest := by
  refine findSome_tests only (fun o low => ?_) rest
  cases o with
  | jump target => exact absurd low (Nat.lt_irrefl 5)
  | _ => rfl

theorem record_tests {tests : Rule} (only : tests.Tests) (rest : Rule) : record (tests ++ rest) = record rest := by
  have group : ∀ o : Opt, o.flag.rank < 5 → o.group = none := by
    intro o low
    cases o with
    | nflogGroup group => exact absurd low (Nat.lt_irrefl 5)
    | _ => rfl
  have text : ∀ o : Opt, o.flag.rank < 5 → o.text = none := by
    intro o low
    cases o with
    | nflogPrefix text => exact absurd low (Nat.lt_irrefl 5)
    | _ => rfl
  rw [record, findSome_tests only group, findSome_tests only text, record]

end Rule

inductive Verdict where
  | accept
  | drop
  | reject
deriving DecidableEq, Repr

/-- What becomes of a packet in a chain: what is logged, and the verdict, unless it leaves the chain. -/
structure Outcome where
  records : List (Nat × List Char)
  verdict : Option Verdict
deriving DecidableEq, Repr

namespace Outcome

def left : Outcome := ⟨[], none⟩

def decided (v : Verdict) : Outcome := ⟨[], some v⟩

def logged (r : Nat × List Char) (o : Outcome) : Outcome := ⟨r :: o.records, o.verdict⟩

def andThen (first second : Outcome) : Outcome :=
  match first.verdict with
  | some v => ⟨first.records, some v⟩
  | none => ⟨first.records ++ second.records, second.verdict⟩

end Outcome

variable (sets : Sets) (p : Packet)

/-- The rules of a chain, one after another. What becomes of the packet in other chains is given. -/
def walk (others : List Char → Outcome) : List Rule → Outcome
  | [] => .left
  | rule :: rest =>
    if rule.matches_ sets p then
      match rule.target with
      | some .accept => .decided .accept
      | some .drop => .decided .drop
      | some .reject => .decided .reject
      | some .leave => .left
      | some .nflog => (walk others rest).logged rule.record
      | some (.chain name) => (others name).andThen (walk others rest)
      | none => walk others rest
    else walk others rest

theorem walk_first {α : Type} {others : List Char → Outcome} {lines : α → List Rule} {test : α → Bool} {result : α → Outcome}
    {items : List α} (each : ∀ a ∈ items, ∀ rest, walk sets p others (lines a ++ rest) =
      if test a then result a else walk sets p others rest) (rest : List Rule) :
    walk sets p others (items.flatMap lines ++ rest) =
      match items.find? test with
      | some a => result a
      | none => walk sets p others rest := by
  induction items with
  | nil => rfl
  | cons a items ih =>
    rw [List.flatMap_cons, List.append_assoc, List.find?_cons, each a List.mem_cons_self]
    cases test a with
    | true => rfl
    | false => exact ih fun b member => each b (List.mem_cons_of_mem _ member)

theorem walk_passed {others : List Char → Outcome} {rule : Rule} (passed : rule.matches_ sets p = false) (rest : List Rule) :
    walk sets p others (rule :: rest) = walk sets p others rest := by
  rw [walk, passed, if_neg Bool.false_ne_true]

/-- Chains, and the rules that have been appended to them, in this order. -/
structure Table where
  declared : List (List Char)
  appended : List (List Char × Rule)
deriving DecidableEq, Repr

namespace Table

def rules (t : Table) (chain : List Char) : List Rule := (t.appended.filter fun a => a.1 = chain).map Prod.snd

def shallow (t : Table) : Nat → List Char → Bool
  | 0, _ => false
  | depth + 1, chain => (t.rules chain).all fun rule =>
    match rule.target with
    | some (.chain name) => t.shallow depth name
    | _ => true

def descend (t : Table) : Nat → List Char → Outcome
  | 0, _ => .left
  | depth + 1, chain => walk sets p (t.descend depth) (t.rules chain)

/-- No chain can lead back to itself, so that no path is longer than there are chains. -/
def loopFree (t : Table) : Bool := t.declared.all (t.shallow t.declared.length)

def outcome (t : Table) (chain : List Char) : Outcome := t.descend sets p t.declared.length chain

end Table

end Netfilter
