import WolfStack.Router.Firewall
import WolfStack.Netfilter.Restore

/-! What firewall rules mean, and that the rule set that is made of them means the same. Between the two
stand the rules as lists of options, which the lines of the rule set spell. -/

namespace Router
open Text Netfilter

def Side.stop : Side → End
  | src => .source
  | dst => .destination

def Protocol.kinds : Protocol → List (Option Proto)
  | tcp => [some .tcp]
  | udp => [some .udp]
  | icmp => [some .icmp]
  | tcpudp => [some .tcp, some .udp]
  | any => [none]

namespace Protocol

def HasPorts (protocol : Protocol) : Prop := protocol = tcp ∨ protocol = udp ∨ protocol = tcpudp

instance (protocol : Protocol) : Decidable protocol.HasPorts := inferInstanceAs (Decidable (_ ∨ _ ∨ _))

def covers (protocol : Protocol) (t : Transport) : Bool := protocol.kinds.any fun kind => kind.all fun proto => t.proto = some proto

end Protocol

namespace Action

def verdict : Action → Option Verdict
  | allow => some .accept
  | deny => some .drop
  | reject => some .reject
  | log => none

def target : Action → Target
  | allow => .accept
  | deny => .drop
  | reject => .reject
  | log => .leave

end Action

namespace PortSpec

def range (spec : PortSpec) : Option (Nat × Nat) := readPorts '-' spec.port.toList

def covers (spec : PortSpec) (t : Transport) : Bool :=
  spec.range.any fun range => (t.port spec.side.stop).any fun port => range.1 ≤ port.toNat && port.toNat ≤ range.2

end PortSpec

variable (node : FirewallNode) (config : FirewallConfig)

/-- Zones and interfaces are those that the packet comes from or goes to, and all others are addresses. -/
def Endpoint.covers (ep : Endpoint) (side : Side) (p : Packet) : Bool :=
  match ep with
  | .any => true
  | .zone inside => (config.membersForZoneOnNode node.selfNodeId inside).any fun m => p.interface side.stop = some m.toList
  | .interface name => p.interface side.stop = some name.toList
  | .ip cidr => (readNetwork cidr.toList).any (·.contains (p.address side.stop))
  | .lan id => (config.lans.find? fun l => l.id = id).any fun l => (readNetwork l.subnetCidr.toList).any (·.contains (p.address side.stop))
  | .vm name | .container name => (node.vms.find? fun v => v.name = name).any fun v => v.wolfnetIp.any fun ip =>
    readAddress ip.toList = some (p.address side.stop)

namespace FirewallRule

def onPorts (rule : FirewallRule) (t : Transport) (side : Side) : Bool :=
  (rule.ports.filter fun spec => spec.side = side).isEmpty || rule.ports.any fun spec => spec.side = side && spec.covers t

def covers (rule : FirewallRule) (p : Packet) : Bool :=
  rule.source.covers node config .src p && rule.target.covers node config .dst p && rule.protocol.covers p.transport &&
    (!decide rule.protocol.HasPorts || rule.onPorts p.transport .src && rule.onPorts p.transport .dst)

def logs (rule : FirewallRule) : Bool := rule.logMatch || rule.action = .log

def logPrefix (rule : FirewallRule) : List Char :=
  "wolfrouter-".toList ++ (takeBytes (min (byteLen rule.id.toList) 8) rule.id.toList).getD [] ++ " ".toList

/-- A rule that only logs sends the packet on its way without asking the rules after it. -/
def outcome (rule : FirewallRule) : Outcome := ⟨if rule.logs then [(1, rule.logPrefix)] else [], rule.action.verdict⟩

end FirewallRule

def intelChain : List Char := "WOLFSTACK_THREAT_INTEL".toList

def intelSet : List Char := "wolfstack-threat-intel".toList

def loopback : List Char := "lo".toList

def meaning (enforced : Bool) (sets : Sets) (direction : Direction) (p : Packet) : Outcome :=
  if p.inInterface = some loopback then .decided .accept
  else if enforced && (sets intelSet p.source || sets intelSet p.destination) then .decided .drop
  else match (rulesHere node config).find? fun rule => rule.direction = direction && rule.covers node config p with
    | some rule => rule.outcome
    | none => .left

def ValidInterface (name : String) : Prop := Verbatim name.toList ∧ byteLen name.toList < 16 ∧ name.toList.getLast? ≠ some '+'

instance (name : String) : Decidable (ValidInterface name) := inferInstanceAs (Decidable (_ ∧ _ ∧ _))

def ValidNetwork (cidr : String) : Prop := (readNetwork cidr.toList).isSome = true

def isPrintable (c : Char) : Bool := 32 ≤ c.toNat && c != '"' && c != '\\'

def Printable (chars : List Char) : Prop := chars.all isPrintable = true

instance (chars : List Char) : Decidable (Printable chars) := inferInstanceAs (Decidable (_ = _))

theorem printable_char {chars : List Char} (printable : Printable chars) {c : Char} (member : c ∈ chars) :
    32 ≤ c.toNat ∧ c ≠ '"' ∧ c ≠ '\\' := by
  have this := List.all_eq_true.mp printable c member
  simpa [isPrintable, and_assoc] using this

def ValidEndpoint (ep : Endpoint) : Prop :=
  match ep with
  | .any => True
  | .zone inside => ∀ m ∈ config.membersForZoneOnNode node.selfNodeId inside, ValidInterface m
  | .interface name => ValidInterface name
  | .ip cidr => ValidNetwork cidr
  | .lan id => Printable id.toList ∧ ∀ l ∈ config.lans.find? fun l => l.id = id, ValidNetwork l.subnetCidr
  | .vm name | .container name => Printable name.toList ∧ ∀ v ∈ node.vms.find? fun v => v.name = name, ∀ ip ∈ v.wolfnetIp,
    (readAddress ip.toList).isSome = true

/-- The rule names addresses, interfaces and ports that there can be, no more than one port for a side, and
an id that can be written. -/
structure ValidRule (rule : FirewallRule) : Prop where
  source : ValidEndpoint node config rule.source
  target : ValidEndpoint node config rule.target
  ports : rule.protocol.HasPorts → ∀ spec ∈ rule.ports, spec.range.isSome = true
  single : rule.protocol.HasPorts → (rule.ports.map PortSpec.side).Nodup
  printable : Printable rule.id.toList
  cut : Boundary (min (byteLen rule.id.toList) 8) rule.id.toList

def networkTests (stop : End) (network : Option Network) : List Rule := network.toList.map fun n => [.address stop n]

def Endpoint.tests (ep : Endpoint) (side : Side) : List Rule :=
  match ep with
  | .any => [[]]
  | .zone inside => (config.membersForZoneOnNode node.selfNodeId inside).map fun m => [.interface side.stop m.toList]
  | .interface name => [[.interface side.stop name.toList]]
  | .ip cidr => networkTests side.stop (readNetwork cidr.toList)
  | .lan id => networkTests side.stop ((config.lans.find? fun l => l.id = id).bind fun l => readNetwork l.subnetCidr.toList)
  | .vm name | .container name => networkTests side.stop ((node.vms.find? fun v => v.name = name).bind fun v => v.wolfnetIp.bind fun ip =>
    (readAddress ip.toList).map fun a => ⟨a, 32⟩)

def Proto.HasPorts (kind : Option Proto) : Prop := kind = some .tcp ∨ kind = some .udp

instance (kind : Option Proto) : Decidable (Proto.HasPorts kind) := inferInstanceAs (Decidable (_ ∨ _))

namespace FirewallRule

def portTests (rule : FirewallRule) (kind : Option Proto) : Rule :=
  if Proto.HasPorts kind then rule.ports.flatMap fun spec => spec.range.toList.map fun range => .port spec.side.stop range.1 range.2 else []

def stateTests (rule : FirewallRule) : Rule := if rule.stateTrack then [.load .conntrack, .ctstate [.new]] else []

def tests (rule : FirewallRule) (kind : Option Proto) (source target : Rule) : Rule :=
  kind.toList.map .proto ++ (source ++ (target ++ (rule.portTests kind ++ rule.stateTests)))

def alternatives (rule : FirewallRule) : List Rule :=
  rule.protocol.kinds.flatMap fun kind => (rule.source.tests node config .src).flatMap fun source =>
    (rule.target.tests node config .dst).map fun target => rule.tests kind source target

def logRule (rule : FirewallRule) (tests : Rule) : Rule := tests ++ [.jump .nflog, .nflogGroup 1, .nflogPrefix rule.logPrefix]

def actionRule (rule : FirewallRule) (tests : Rule) : Rule := tests ++ [.jump rule.action.target]

def lines (rule : FirewallRule) (tests : Rule) : List Rule :=
  if rule.logs then [rule.logRule tests, rule.actionRule tests] else [rule.actionRule tests]

def compiled (rule : FirewallRule) : List Rule := (rule.alternatives node config).flatMap rule.lines

end FirewallRule

variable {node config}

theorem namesInterface_valid {name : String} (valid : ValidInterface name) (interface : Option (List Char)) :
    Opt.namesInterface name.toList interface = decide (interface = some name.toList) := by
  rw [Opt.namesInterface, if_neg valid.2.2]

theorem networkTests_any (sets : Sets) (p : Packet) (stop : End) (network : Option Network) :
    (networkTests stop network).any (Rule.matches_ sets p) = network.any (·.contains (p.address stop)) := by
  cases network <;> simp [networkTests, Rule.matches_, Opt.holds]

theorem host_any (chars : List Char) (b : BitVec 32) :
    ((readAddress chars).map fun a => Network.mk a 32).any (·.contains b) = decide (readAddress chars = some b) := by
  cases readAddress chars with
  | none => rfl
  | some a =>
    rw [Option.map_some, Option.any_some, Bool.eq_iff_iff, contains_host, decide_eq_true_iff, Option.some.injEq]
    exact eq_comm

theorem tests_cover {ep : Endpoint} (valid : ValidEndpoint node config ep) (side : Side) (sets : Sets) (p : Packet) :
    (ep.tests node config side).any (Rule.matches_ sets p) = ep.covers node config side p := by
  have host : ∀ name, (networkTests side.stop ((node.vms.find? fun v => v.name = name).bind fun v => v.wolfnetIp.bind fun ip =>
      (readAddress ip.toList).map fun a => ⟨a, 32⟩)).any (Rule.matches_ sets p) =
      (node.vms.find? fun v => v.name = name).any fun v => v.wolfnetIp.any fun ip => readAddress ip.toList = some (p.address side.stop) := by
    intro name
    rw [networkTests_any]
    cases node.vms.find? fun v => v.name = name with
    | none => rfl
    | some v =>
      rw [Option.bind_some, Option.any_some]
      cases v.wolfnetIp with
      | none => rfl
      | some ip => exact host_any ip.toList _
  have named : ∀ {name : String}, ValidInterface name →
      Rule.matches_ sets p [.interface side.stop name.toList] = decide (p.interface side.stop = some name.toList) := fun valid =>
    (Bool.and_true _).trans (namesInterface_valid valid _)
  cases ep with
  | any => rfl
  | zone inside =>
    rw [Endpoint.tests, List.any_map, Endpoint.covers, Bool.eq_iff_iff, List.any_eq_true, List.any_eq_true]
    refine exists_congr fun m => and_congr_right fun member => ?_
    rw [Function.comp_apply, named (valid m member)]
  | interface name => exact (Bool.or_false _).trans (named valid)
  | ip cidr => exact networkTests_any sets p _ _
  | lan id =>
    rw [Endpoint.tests, networkTests_any, Endpoint.covers]
    cases config.lans.find? fun l => l.id = id <;> rfl
  | vm name => exact host name
  | container name => exact host name

theorem kind_ports (protocol : Protocol) : ∀ kind ∈ protocol.kinds, (Proto.HasPorts kind ↔ protocol.HasPorts) := by
  cases protocol <;> decide

theorem onPorts_iff (rule : FirewallRule) (t : Transport) (side : Side) : rule.onPorts t side = true ↔
    (∀ spec ∈ rule.ports, spec.side ≠ side) ∨ ∃ spec ∈ rule.ports, spec.side = side ∧ spec.covers t = true := by
  simp [FirewallRule.onPorts]

theorem all_ports {rule : FirewallRule} (single : (rule.ports.map PortSpec.side).Nodup) (t : Transport) :
    (rule.ports.all fun spec => spec.covers t) = (rule.onPorts t .src && rule.onPorts t .dst) := by
  rw [Bool.eq_iff_iff, List.all_eq_true, Bool.and_eq_true]
  constructor
  · intro all
    have side : ∀ side, rule.onPorts t side = true := by
      intro side
      rw [onPorts_iff]
      by_cases some_ : ∃ spec ∈ rule.ports, spec.side = side
      · obtain ⟨spec, member, same⟩ := some_
        exact .inr ⟨spec, member, same, all spec member⟩
      · exact .inl fun spec member same => some_ ⟨spec, member, same⟩
    exact ⟨side .src, side .dst⟩
  · intro ⟨src, dst⟩ spec member
    have side : rule.onPorts t spec.side = true := by
      cases spec.side with
      | src => exact src
      | dst => exact dst
    rcases (onPorts_iff rule t spec.side).mp side with none_ | ⟨other, among, same, covers⟩
    · exact absurd rfl (none_ spec member)
    · rwa [List.inj_on_of_nodup_map single among member same] at covers

theorem portTests_match {rule : FirewallRule} {kind : Option Proto} (ports : ∀ spec ∈ rule.ports, spec.range.isSome = true)
    (here : Proto.HasPorts kind) (sets : Sets) (p : Packet) :
    Rule.matches_ sets p (rule.portTests kind) = rule.ports.all fun spec => spec.covers p.transport := by
  rw [Rule.matches_, FirewallRule.portTests, if_pos here, List.all_flatMap, Bool.eq_iff_iff, List.all_eq_true, List.all_eq_true]
  refine forall_congr' fun spec => forall_congr' fun member => ?_
  obtain ⟨range, read⟩ := Option.isSome_iff_exists.mp (ports spec member)
  rw [PortSpec.covers, read]
  simp [Opt.holds]

theorem stateTests_match (rule : FirewallRule) (sets : Sets) {p : Packet} (new : p.state = .new) :
    Rule.matches_ sets p rule.stateTests = true := by
  cases tracked : rule.stateTrack <;> simp [FirewallRule.stateTests, tracked, Rule.matches_, Opt.holds, new]

theorem alternatives_cover {rule : FirewallRule} (valid : ValidRule node config rule) (sets : Sets) {p : Packet} (new : p.state = .new) :
    (rule.alternatives node config).any (Rule.matches_ sets p) = rule.covers node config p := by
  have ports : ∀ kind ∈ rule.protocol.kinds, Rule.matches_ sets p (rule.portTests kind) =
      (!decide rule.protocol.HasPorts || rule.onPorts p.transport .src && rule.onPorts p.transport .dst) := by
    intro kind member
    by_cases has : rule.protocol.HasPorts
    · rw [portTests_match (valid.ports has) ((kind_ports _ kind member).mpr has), all_ports (valid.single has), decide_eq_true has]
      rfl
    · rw [FirewallRule.portTests, if_neg fun here => has ((kind_ports _ kind member).mp here), decide_eq_false has]
      rfl
  have each : ∀ kind ∈ rule.protocol.kinds, ∀ source target, Rule.matches_ sets p (rule.tests kind source target) =
      (kind.all (fun proto => p.transport.proto = some proto) && (Rule.matches_ sets p source && (Rule.matches_ sets p target &&
        (!decide rule.protocol.HasPorts || rule.onPorts p.transport .src && rule.onPorts p.transport .dst)))) := by
    intro kind member source target
    have proto : Rule.matches_ sets p (kind.toList.map .proto) = kind.all fun proto => p.transport.proto = some proto := by
      cases kind <;> simp [Rule.matches_, Opt.holds]
    rw [FirewallRule.tests, Rule.matches_append, Rule.matches_append, Rule.matches_append, Rule.matches_append, proto, ports kind member,
      stateTests_match rule sets new, Bool.and_true]
  rw [FirewallRule.covers, ← tests_cover valid.source .src sets p, ← tests_cover valid.target .dst sets p, Protocol.covers, Bool.eq_iff_iff]
  simp only [FirewallRule.alternatives, List.any_eq_true, List.mem_flatMap, List.mem_map, Bool.and_eq_true]
  constructor
  · rintro ⟨test, ⟨kind, known, source, from_, target, to_, rfl⟩, holds⟩
    rw [each kind known] at holds
    obtain ⟨proto, fromHere, toThere, onPort⟩ := by simpa only [Bool.and_eq_true] using holds
    exact ⟨⟨⟨⟨source, from_, fromHere⟩, target, to_, toThere⟩, kind, known, proto⟩, onPort⟩
  · rintro ⟨⟨⟨⟨source, from_, fromHere⟩, target, to_, toThere⟩, kind, known, proto⟩, onPort⟩
    refine ⟨rule.tests kind source target, ⟨kind, known, source, from_, target, to_, rfl⟩, ?_⟩
    rw [each kind known, proto, fromHere, toThere, onPort]
    rfl

def stopRank : End → Nat
  | .source => 1
  | .destination => 2

theorem tests_given (ep : Endpoint) (side : Side) : ∀ test ∈ ep.tests node config side,
    ((test.map Opt.flag).filter (· ≠ .load)).Nodup ∧ ∀ o ∈ test, o.flag.rank = stopRank side.stop ∧ o.needs = none := by
  have address : ∀ network, ∀ test ∈ networkTests side.stop network,
      ((test.map Opt.flag).filter (· ≠ .load)).Nodup ∧ ∀ o ∈ test, o.flag.rank = stopRank side.stop ∧ o.needs = none := by
    intro network test member
    obtain ⟨n, -, rfl⟩ := List.mem_map.mp member
    refine ⟨by simp [Opt.flag], List.forall_mem_singleton.mpr ⟨?_, rfl⟩⟩
    cases side <;> rfl
  have interface : ∀ name, (([Opt.interface side.stop name].map Opt.flag).filter (· ≠ .load)).Nodup ∧
      ∀ o ∈ [Opt.interface side.stop name], o.flag.rank = stopRank side.stop ∧ o.needs = none := by
    intro name
    refine ⟨by simp [Opt.flag], List.forall_mem_singleton.mpr ⟨?_, rfl⟩⟩
    cases side <;> rfl
  cases ep with
  | any => exact List.forall_mem_singleton.mpr ⟨List.nodup_nil, nofun⟩
  | zone inside =>
    intro test member
    obtain ⟨m, -, rfl⟩ := List.mem_map.mp member
    exact interface m.toList
  | interface name => exact List.forall_mem_singleton.mpr (interface name.toList)
  | ip cidr => exact address _
  | lan id => exact address _
  | vm name => exact address _
  | container name => exact address _

namespace FirewallRule

theorem portTests_given {rule : FirewallRule} (kind : Option Proto) (single : Proto.HasPorts kind → (rule.ports.map PortSpec.side).Nodup) :
    (((rule.portTests kind).map Opt.flag).filter (· ≠ .load)).Nodup ∧ ∀ o ∈ rule.portTests kind, o.flag.rank = 3 := by
  by_cases has : Proto.HasPorts kind
  · rw [portTests, if_pos has]
    constructor
    · have flags : ((rule.ports.flatMap fun spec => spec.range.toList.map fun range => Opt.port spec.side.stop range.1 range.2).map Opt.flag).Sublist
          (rule.ports.map fun spec => Flag.port spec.side.stop) := by
        induction rule.ports with
        | nil => exact .slnil
        | cons spec rest ih =>
          rw [List.flatMap_cons, List.map_append, List.map_cons]
          cases spec.range with
          | none => exact ih.cons _
          | some range => exact ih.cons_cons _
      refine (flags.nodup ?_).filter _
      have apart : Function.Injective fun side : Side => Flag.port side.stop := by
        intro one two same
        cases one <;> cases two <;> first | rfl | cases same
      have sides := (single has).map apart
      rwa [List.map_map] at sides
    · intro o member
      obtain ⟨spec, -, inside⟩ := List.mem_flatMap.mp member
      obtain ⟨range, -, rfl⟩ := List.mem_map.mp inside
      rfl
  · rw [portTests, if_neg has]
    exact ⟨List.nodup_nil, nofun⟩

theorem portTests_needs (rule : FirewallRule) (kind : Option Proto) :
    ∀ o ∈ rule.portTests kind, ∀ e ∈ o.needs, e ∈ (kind.toList.map Opt.proto).flatMap Opt.loads := by
  intro o member e needed
  by_cases has : Proto.HasPorts kind
  · rw [portTests, if_pos has] at member
    obtain ⟨spec, -, inside⟩ := List.mem_flatMap.mp member
    obtain ⟨range, -, rfl⟩ := List.mem_map.mp inside
    cases needed
    rcases has with rfl | rfl <;> exact List.mem_singleton.mpr rfl
  · rw [portTests, if_neg has] at member
    cases member

theorem tests_sound {rule : FirewallRule} (valid : ValidRule node config rule) {kind : Option Proto} (known : kind ∈ rule.protocol.kinds)
    {source target : Rule} (from_ : source ∈ rule.source.tests node config .src) (to_ : target ∈ rule.target.tests node config .dst)
    {last : Rule} (final : last = [.jump .nflog, .nflogGroup 1, .nflogPrefix rule.logPrefix] ∨ last = [.jump rule.action.target]) :
    Rule.sound (rule.tests kind source target ++ last) = true := by
  obtain ⟨sourceOnce, sourceOpts⟩ := tests_given rule.source .src source from_
  obtain ⟨targetOnce, targetOpts⟩ := tests_given rule.target .dst target to_
  have single : Proto.HasPorts kind → (rule.ports.map PortSpec.side).Nodup := fun here => valid.single ((kind_ports _ kind known).mp here)
  have shape : rule.tests kind source target ++ last =
      [kind.toList.map .proto, source, target, rule.portTests kind, rule.stateTests, last].flatten := by
    simp [tests]
  rw [shape]
  refine Rule.sound_ranked [0, 1, 2, 3, 4, 5] (by decide) (.cons ?_ (.cons ⟨sourceOnce, fun o member => (sourceOpts o member).1⟩
    (.cons ⟨targetOnce, fun o member => (targetOpts o member).1⟩ (.cons (portTests_given kind single) (.cons ?_ (.cons ?_ .nil)))))) ?_
  · cases kind with
    | none => exact ⟨List.nodup_nil, nofun⟩
    | some proto => exact ⟨List.nodup_singleton _, List.forall_mem_singleton.mpr rfl⟩
  · cases tracked : rule.stateTrack <;> simp [stateTests, tracked, Opt.flag, Flag.rank]
  · rcases final with rfl | rfl <;> simp [Opt.flag, Flag.rank]
  · have free : ∀ {test : Rule} {stop : Nat}, (∀ o ∈ test, o.flag.rank = stop ∧ o.needs = none) → ∀ loaded, Rule.ordered loaded test = true :=
      fun opts loaded => Rule.ordered_loaded fun o member e needed => by rw [(opts o member).2] at needed; cases needed
    have proto : Rule.ordered [] (kind.toList.map .proto) = true := by cases kind <;> rfl
    have states : Rule.ordered [] (rule.stateTests ++ last) = true := by
      rcases final with rfl | rfl <;> cases tracked : rule.stateTrack <;> simp [stateTests, tracked, Rule.ordered, Opt.needs, Opt.loads]
    have ports := Rule.ordered_append (Rule.ordered_loaded (portTests_needs rule kind)) states nofun
    have targets := Rule.ordered_append (free targetOpts _) ports fun e member => .inl member
    have sources := Rule.ordered_append (free sourceOpts _) targets fun e member => .inl member
    have whole := Rule.ordered_append proto sources fun e member => .inr (List.mem_flatMap.mp member)
    simpa [tests] using whole

theorem tests_only {rule : FirewallRule} {kind : Option Proto} {source target : Rule} (single : Proto.HasPorts kind → (rule.ports.map PortSpec.side).Nodup)
    (from_ : source ∈ rule.source.tests node config .src) (to_ : target ∈ rule.target.tests node config .dst) :
    (rule.tests kind source target).Tests := by
  intro o member
  rw [tests, List.mem_append, List.mem_append, List.mem_append, List.mem_append] at member
  rcases member with proto | source | target | port | state
  · obtain ⟨p, -, rfl⟩ := List.mem_map.mp proto
    exact Nat.zero_lt_succ 4
  · rw [((tests_given rule.source .src _ from_).2 o source).1]
    decide
  · rw [((tests_given rule.target .dst _ to_).2 o target).1]
    decide
  · rw [(portTests_given kind single).2 o port]
    decide
  · rw [stateTests] at state
    split at state
    · rcases List.mem_cons.mp state with rfl | last
      · decide
      · rw [List.mem_singleton.mp last]
        decide
    · cases state

theorem alternatives_only {rule : FirewallRule} (valid : ValidRule node config rule) : ∀ test ∈ rule.alternatives node config, test.Tests := by
  intro test member
  obtain ⟨kind, known, inside⟩ := List.mem_flatMap.mp member
  obtain ⟨source, from_, within⟩ := List.mem_flatMap.mp inside
  obtain ⟨target, to_, rfl⟩ := List.mem_map.mp within
  exact tests_only (fun here => valid.single ((kind_ports _ kind known).mp here)) from_ to_

theorem target_verdict (action : Action) (sets : Sets) (p : Packet) (others : List Char → Outcome) {rule : Rule}
    (matches_ : rule.matches_ sets p = true) (target : rule.target = some action.target) (rest : List Rule) :
    walk sets p others (rule :: rest) = ⟨[], action.verdict⟩ := by
  rw [walk, if_pos matches_, target]
  cases action <;> rfl

theorem lines_walk (rule : FirewallRule) {test : Rule} (only : test.Tests) (sets : Sets) (p : Packet) (others : List Char → Outcome)
    (rest : List Rule) : walk sets p others (rule.lines test ++ rest) =
      if test.matches_ sets p then rule.outcome else walk sets p others rest := by
  have tail : ∀ last : Rule, last.matches_ sets p = true → Rule.matches_ sets p (test ++ last) = test.matches_ sets p := by
    intro last always
    rw [Rule.matches_append, always, Bool.and_true]
  have action : Rule.matches_ sets p (rule.actionRule test) = test.matches_ sets p := tail _ rfl
  have log : Rule.matches_ sets p (rule.logRule test) = test.matches_ sets p := tail _ rfl
  have target : (rule.actionRule test).target = some rule.action.target := Rule.target_tests only _
  have nflog : (rule.logRule test).target = some .nflog := Rule.target_tests only _
  have record : (rule.logRule test).record = (1, rule.logPrefix) := Rule.record_tests only _
  cases holds : test.matches_ sets p with
  | true =>
    have decided := target_verdict rule.action sets p others (action.trans holds) target rest
    rw [if_pos rfl, lines, outcome]
    split
    · rw [List.cons_append, walk, if_pos (log.trans holds), nflog, List.singleton_append]
      dsimp only
      rw [decided, record]
      rfl
    · exact decided
  | false =>
    have passed : walk sets p others (rule.actionRule test :: rest) = walk sets p others rest := walk_passed sets p (action.trans holds) rest
    rw [if_neg Bool.false_ne_true, lines]
    split
    · exact (walk_passed sets p (log.trans holds) _).trans passed
    · exact passed

theorem compiled_walk {rule : FirewallRule} (valid : ValidRule node config rule) (sets : Sets) {p : Packet} (new : p.state = .new)
    (others : List Char → Outcome) (rest : List Rule) : walk sets p others (rule.compiled node config ++ rest) =
      if rule.covers node config p then rule.outcome else walk sets p others rest := by
  have each : ∀ test ∈ rule.alternatives node config, ∀ rest, walk sets p others (rule.lines test ++ rest) =
      if test.matches_ sets p then rule.outcome else walk sets p others rest := by
    exact fun test member rest => lines_walk rule (alternatives_only valid test member) sets p others rest
  rw [compiled, walk_first sets p each, ← alternatives_cover valid sets new]
  cases found : (rule.alternatives node config).find? (Rule.matches_ sets p) with
  | some test => rw [if_pos (List.any_eq_true.mpr ⟨test, List.mem_of_find?_eq_some found, List.find?_some found⟩)]
  | none => rw [if_neg fun any => (List.any_eq_true.mp any).elim fun test ⟨member, holds⟩ => List.find?_eq_none.mp found test member holds]

end FirewallRule

end Router
