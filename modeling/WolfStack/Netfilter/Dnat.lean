import Mathlib.Data.List.Basic
import Mathlib.Data.List.TakeWhile
import Mathlib.Algebra.GroupWithZero.Nat

/-! Rules of iptables that translate the destinations of new connections, read from the words which they are
given in. Each option is followed by one value. -/

namespace Dnat

structure Connection where
  dst : String
  proto : String
  port : Nat

/-- Where a connection is sent. It keeps its port, or gets one of a range. -/
structure Destination where
  ip : String
  ports : Option (Nat × Nat)
deriving DecidableEq, Repr

/-- What is taken for an address and for a port, and how many ports a list may name, a range counting as two. -/
structure Syntax where
  address : String → Bool
  port : List Char → Option Nat
  most : Nat
  address_plain : ∀ s, address s = true → ':' ∉ s.toList
  port_plain : ∀ s n, port s = some n → ',' ∉ s ∧ ':' ∉ s
  port_decimal : ∀ n ≤ 65535, port (toString n).toList = some n

structure Rule where
  dst : Option String
  proto : Option String
  ports : Option (List (Nat × Nat))
  /-- A statistic match lets only some connections through. -/
  chance : Bool
  destination : Option Destination
deriving DecidableEq, Repr

def Rule.blank : Rule := ⟨none, none, none, false, none⟩

namespace Syntax
variable (ipt : Syntax)

def bounds (mark : Char) (text : List Char) : Option (Nat × Nat) :=
  match text.dropWhile (· ≠ mark) with
  | [] => (ipt.port text).map fun p => (p, p)
  | _ :: last =>
    match ipt.port (text.takeWhile (· ≠ mark)), ipt.port last with
    | some lo, some hi => if lo ≤ hi then some (lo, hi) else none
    | _, _ => none

def dport (text : String) : Option (List (Nat × Nat)) := (ipt.bounds ':' text.toList).map fun span => [span]

def dports (text : String) : Option (List (Nat × Nat)) :=
  let parts := text.toList.splitOn ','
  if (parts.map fun part => if ':' ∈ part then 2 else 1).sum ≤ ipt.most then parts.mapM (ipt.bounds ':') else none

def toDestination (text : String) : Option Destination :=
  match text.toList.dropWhile (· ≠ ':') with
  | [] => if ipt.address text then some ⟨text, none⟩ else none
  | _ :: ports =>
    let ip := String.ofList (text.toList.takeWhile (· ≠ ':'))
    if ipt.address ip then (ipt.bounds '-' ports).map fun span => ⟨ip, some span⟩ else none

/-- An option with its value. Only protocols that have ports may be named together with ports. -/
def set (opt value : String) (r : Rule) : Option Rule :=
  if opt = "-d" then if ipt.address value then some { r with dst := some value } else none
  else if opt = "-p" then if value = "tcp" ∨ value = "udp" then some { r with proto := some value } else none
  else if opt = "-m" then
    if value ∈ ["multiport", "statistic", "conntrack", "comment"] then some { r with chance := r.chance || value = "statistic" } else none
  else if opt = "--dport" then
    if r.proto.isNone then none else (ipt.dport value).map fun spans => { r with ports := some spans }
  else if opt = "--dports" then
    if r.proto.isNone then none else (ipt.dports value).map fun spans => { r with ports := some spans }
  else if opt = "--to-destination" then
    (ipt.toDestination value).bind fun dest =>
      if dest.ports.isSome && r.proto.isNone then none else some { r with destination := some dest }
  else if opt = "--to-source" then if ipt.address value then some r else none
  else if opt = "-j" then if value ∈ ["DNAT", "SNAT", "ACCEPT"] then some r else none
  else if opt ∈ ["--mode", "--every", "--packet", "--probability", "--comment", "--ctstate"] then some r
  else none

def read : List String → Rule → Option Rule
  | [], r => some r
  | opt :: value :: rest, r => (ipt.set opt value r).bind (read rest)
  | [_], _ => none

section
variable {ipt : Syntax} {value : String} {r : Rule} {rest : List String}

theorem read_pair (opt value : String) (rest : List String) (r : Rule) :
    ipt.read (opt :: value :: rest) r = (ipt.set opt value r).bind fun r => ipt.read rest r := rfl

@[simp] theorem read_nil : ipt.read [] r = some r := rfl

@[simp] theorem read_dst : ipt.read ("-d" :: value :: rest) r =
    if ipt.address value then ipt.read rest { r with dst := some value } else none := by
  rw [read_pair, set, if_pos rfl]
  split <;> rfl

@[simp] theorem read_proto (named : value = "tcp" ∨ value = "udp") :
    ipt.read ("-p" :: value :: rest) r = ipt.read rest { r with proto := some value } := by
  rw [read_pair]
  simp only [set, String.reduceEq, if_false, if_true, if_pos named, Option.bind_some]

@[simp] theorem read_dport : ipt.read ("--dport" :: value :: rest) r =
    if r.proto.isNone then none else (ipt.dport value).bind fun spans => ipt.read rest { r with ports := some spans } := by
  rw [read_pair]
  simp only [set, String.reduceEq, if_false, if_true]
  split
  · rfl
  · rw [Option.bind_map]
    rfl

theorem set_module (known : value ∈ ["multiport", "statistic", "conntrack", "comment"]) :
    ipt.set "-m" value r = some { r with chance := r.chance || value = "statistic" } := by
  rw [set, if_neg (by decide), if_neg (by decide), if_pos rfl, if_pos known]

theorem set_jump (known : value ∈ ["DNAT", "SNAT", "ACCEPT"]) : ipt.set "-j" value r = some r := by
  rw [set, if_neg (by decide), if_neg (by decide), if_neg (by decide), if_neg (by decide), if_neg (by decide), if_neg (by decide),
    if_neg (by decide), if_pos rfl, if_pos known]

theorem set_destination : ipt.set "--to-destination" value r = (ipt.toDestination value).bind fun dest =>
    if dest.ports.isSome && r.proto.isNone then none else some { r with destination := some dest } := by
  rw [set, if_neg (by decide), if_neg (by decide), if_neg (by decide), if_neg (by decide), if_neg (by decide), if_pos rfl]

theorem read_module (known : value ∈ ["multiport", "conntrack", "comment"]) (rest : List String) :
    ipt.read ("-m" :: value :: rest) r = ipt.read rest r := by
  have certain : (value = "statistic") = False := by
    rw [eq_iff_iff, iff_false]
    rintro rfl
    exact absurd known (by decide)
  have among : value ∈ ["multiport", "statistic", "conntrack", "comment"] := by
    rcases List.mem_cons.mp known with rfl | others
    · exact List.mem_cons_self
    · exact List.mem_cons_of_mem _ (List.mem_cons_of_mem _ others)
  rw [read_pair, set_module among, Option.bind_some]
  simp only [certain, decide_false, Bool.or_false]

theorem read_jump (known : value ∈ ["DNAT", "SNAT", "ACCEPT"]) (rest : List String) : ipt.read ("-j" :: value :: rest) r = ipt.read rest r := by
  rw [read_pair, set_jump known, Option.bind_some]

@[simp] theorem read_dports : ipt.read ("-m" :: "multiport" :: "--dports" :: value :: rest) r =
    if r.proto.isNone then none else (ipt.dports value).bind fun spans => ipt.read rest { r with ports := some spans } := by
  rw [read_module (by decide), read_pair]
  simp only [set, String.reduceEq, if_false, if_true]
  split
  · rfl
  · rw [Option.bind_map]
    rfl

@[simp] theorem read_dnat : ipt.read ("-j" :: "DNAT" :: "--to-destination" :: value :: rest) r =
    (ipt.toDestination value).bind fun dest =>
      if dest.ports.isSome && r.proto.isNone then none else ipt.read rest { r with destination := some dest } := by
  rw [read_jump (by decide), read_pair, set_destination, Option.bind_assoc]
  congr 1
  funext dest
  split <;> rfl

@[simp] theorem read_snat : ipt.read ("-j" :: "SNAT" :: "--to-source" :: value :: rest) r =
    if ipt.address value then ipt.read rest r else none := by
  rw [read_jump (by decide), read_pair]
  simp only [set, String.reduceEq, if_false, if_true]
  split <;> rfl

@[simp] theorem read_accept : ipt.read ("-j" :: "ACCEPT" :: rest) r = ipt.read rest r := read_jump (by decide) rest

theorem read_idle {opt : String} (idle : opt ∈ ["--mode", "--every", "--packet", "--probability", "--comment", "--ctstate"]) :
    ipt.read (opt :: value :: rest) r = ipt.read rest r := by
  have other : ∀ word ∈ ["-d", "-p", "-m", "--dport", "--dports", "--to-destination", "--to-source", "-j"], opt ≠ word := by
    rintro word known rfl
    simp only [List.mem_cons, List.not_mem_nil, or_false] at known
    rcases known with rfl | rfl | rfl | rfl | rfl | rfl | rfl | rfl <;> exact absurd idle (by decide)
  have plain : ipt.set opt value r = some r := by
    rw [set, if_neg (other _ (by decide)), if_neg (other _ (by decide)), if_neg (other _ (by decide)), if_neg (other _ (by decide)),
      if_neg (other _ (by decide)), if_neg (other _ (by decide)), if_neg (other _ (by decide)), if_neg (other _ (by decide)), if_pos idle]
  rw [read_pair, plain, Option.bind_some]

@[simp] theorem read_statistic : ipt.read ("-m" :: "statistic" :: rest) r = ipt.read rest { r with chance := true } := by
  rw [read_pair, set_module (by decide), Option.bind_some]
  simp only [decide_true, Bool.or_true]

@[simp] theorem read_comment : ipt.read ("-m" :: "comment" :: rest) r = ipt.read rest r := read_module (by decide) rest

@[simp] theorem read_conntrack : ipt.read ("-m" :: "conntrack" :: rest) r = ipt.read rest r := read_module (by decide) rest

theorem bounds_plain {mark : Char} {text : List Char} (plain : mark ∉ text) : ipt.bounds mark text = (ipt.port text).map fun p => (p, p) := by
  have none_ : text.dropWhile (· ≠ mark) = [] := List.dropWhile_eq_nil_iff.mpr fun c member => by
    simpa using fun same : c = mark => plain (same ▸ member)
  rw [bounds, none_]

theorem toDestination_port {ip ports : String} (plain : ':' ∉ ip.toList) : ipt.toDestination (ip ++ ":" ++ ports) =
    if ipt.address ip then (ipt.bounds '-' ports.toList).map fun span => ⟨ip, some span⟩ else none := by
  have spelt : (ip ++ ":" ++ ports).toList = ip.toList ++ ':' :: ports.toList := by
    simp [String.toList_append]
  have others : ∀ c ∈ ip.toList, decide (c ≠ ':') = true := fun c member => by
    simpa using fun same : c = ':' => plain (same ▸ member)
  have back : (ip.toList ++ ':' :: ports.toList).dropWhile (fun c => decide (c ≠ ':')) = ':' :: ports.toList := by
    rw [List.dropWhile_append_of_pos others]
    rfl
  have front : (ip.toList ++ ':' :: ports.toList).takeWhile (fun c => decide (c ≠ ':')) = ip.toList := by
    rw [List.takeWhile_append_of_pos others]
    simp
  rw [toDestination, spelt, back]
  dsimp only
  rw [front, String.ofList_toList]

theorem toDestination_alone {ip : String} (plain : ':' ∉ ip.toList) :
    ipt.toDestination ip = if ipt.address ip then some ⟨ip, none⟩ else none := by
  have none_ : ip.toList.dropWhile (· ≠ ':') = [] := List.dropWhile_eq_nil_iff.mpr fun c member => by
    simpa using fun same : c = ':' => plain (same ▸ member)
  rw [toDestination, none_]

end

end Syntax

/-- What a listed rule may do with a connection: send it somewhere, or leave it to the next. -/
abbrev Effect := Connection → List (Option Destination)

def Rule.fits (r : Rule) (c : Connection) : Bool :=
  r.dst.all (· = c.dst) && r.proto.all (· = c.proto) && r.ports.all fun spans => spans.any fun s => s.1 ≤ c.port && c.port ≤ s.2

def Rule.effect (r : Rule) : Effect := fun c =>
  if r.fits c then if r.chance then [r.destination, none] else [r.destination] else [none]

def outcomes : List Effect → Effect
  | [], _ => [none]
  | e :: rest, c => (e c).flatMap fun o =>
    match o with
    | some d => [some d]
    | none => outcomes rest c

section
variable {first rest : List Effect} {e : Effect} {c : Connection}

theorem outcomes_skip (skipped : e c = [none]) : outcomes (e :: rest) c = outcomes rest c := by
  rw [outcomes, skipped, List.flatMap_singleton]

theorem outcomes_taken {d : Destination} (taken : e c = [some d]) : outcomes (e :: rest) c = [some d] := by
  rw [outcomes, taken, List.flatMap_singleton]

theorem outcomes_past (past : ∀ e ∈ first, e c = [none]) : outcomes (first ++ rest) c = outcomes rest c := by
  induction first with
  | nil => rfl
  | cons e first ih =>
    rw [List.cons_append, outcomes_skip (past e List.mem_cons_self)]
    exact ih fun e member => past e (List.mem_cons_of_mem _ member)

theorem outcomes_out (skipped : e c = [none]) : outcomes (first ++ e :: rest) c = outcomes (first ++ rest) c := by
  induction first with
  | nil => exact outcomes_skip skipped
  | cons f first ih => rw [List.cons_append, List.cons_append, outcomes, outcomes, ih]

theorem outcomes_again (there : e ∈ first) (sure : ∃ o, e c = [o]) : outcomes (first ++ e :: rest) c = outcomes (first ++ rest) c := by
  obtain ⟨o, only⟩ := sure
  cases o with
  | none => exact outcomes_out only
  | some d =>
    induction first with
    | nil => cases there
    | cons f first ih =>
      rw [List.cons_append, List.cons_append]
      rcases List.mem_cons.mp there with rfl | later
      · rw [outcomes_taken only, outcomes_taken only]
      · rw [outcomes, outcomes, ih later]

theorem fits_iff {r : Rule} : r.fits c = true ↔ (∀ d ∈ r.dst, d = c.dst) ∧ (∀ p ∈ r.proto, p = c.proto) ∧
    ∀ spans ∈ r.ports, ∃ s ∈ spans, s.1 ≤ c.port ∧ c.port ≤ s.2 := by
  simp [Rule.fits, Option.all_eq_true, and_assoc]

theorem effect_sure {r : Rule} (sure : r.chance = false) : ∃ o, r.effect c = [o] := by
  rw [Rule.effect, sure]
  split
  · exact ⟨_, rfl⟩
  · exact ⟨_, rfl⟩

end

end Dnat
