import WolfStack.Networking.ProtectedPorts
import WolfStack.Netfilter.Dnat

/-! Where connections to a mapping's public address end up: the i-th source port should become the i-th
destination port. -/

namespace Networking
open Auth Router Dnat

/-- A host with what iptables makes of the words that it is given, and what the rules do that it lists. -/
structure Kernel where
  host : Host
  ipt : Syntax
  effect : String → Effect
  faithful : ∀ args, match host.denotes args with
    | .ok spec => ∃ r, ipt.read args .blank = some r ∧ effect spec = r.effect
    | .error _ => ipt.read args .blank = none
  addresses : ∀ s, isIpv4 s = true → ipt.address s = true
  gateway : ∀ g, host.gateway = some g → ipt.address g = true

namespace IpMapping
variable (m : IpMapping)

def hasPorts : Bool := m.ports.any fun s => trim s ≠ ""

def sourcePorts : List Nat := portsOf m.ports

def targetPorts : List Nat := portsOf (m.destPorts.or m.ports)

def covers (c : Connection) : Bool := m.protocol = "all" || m.protocol = c.proto

end IpMapping

def Lands (targets : List String) (port dest : Nat) (o : Option Destination) : Prop :=
  ∃ ip ∈ targets, o = some ⟨ip, none⟩ ∧ dest = port ∨ o = some ⟨ip, some (dest, dest)⟩

/-- What a mapping wants of a connection to its public address. Without ports it is about all of them. -/
def IpMapping.Wants (m : IpMapping) (targets : List String) (c : Connection) (o : Option Destination) : Prop :=
  if m.covers c = true then
    if m.hasPorts = true then
      (∀ pair ∈ m.sourcePorts.zip m.targetPorts, pair.1 = c.port → Lands targets c.port pair.2 o) ∧ (c.port ∉ m.sourcePorts → o = none)
    else Lands targets c.port c.port o
  else o = none

namespace Kernel
variable (k : Kernel) (m : IpMapping)

def targets : List String :=
  match k.host.backends m with
  | some (backends, _) => backends
  | none => [m.wolfnetIp]

def Clear (ip : String) (rules : List String) : Prop := ∀ spec ∈ rules, ∀ c : Connection, c.dst = ip → k.effect spec c = [none]

/-- Applying a mapping succeeds, and where no other rule has a say on its public address, what comes to it from
outside and from the host goes where the mapping wants it. -/
def Translates : Prop :=
  ∀ t, (k.host.applyMappingRules m t).1 = .ok () ∧
    ∀ chain ∈ [Chain.prerouting, .output], k.Clear m.publicIp (k.host.purgeMappingRules m t chain) →
      ∀ c : Connection, c.dst = m.publicIp → ∀ o ∈ outcomes (((k.host.applyMappingRules m t).2 chain).map k.effect) c,
        m.Wants (k.targets m) c o

def spans (text : String) : Option (List (Nat × Nat)) := if ',' ∈ text.toList then k.ipt.dports text else k.ipt.dport text

def Matches (text : String) (ports : List Nat) : Prop :=
  ∃ spans, k.spans text = some spans ∧ ∀ p, (∃ s ∈ spans, s.1 ≤ p ∧ p ≤ s.2) ↔ p ∈ ports

def Sends (text : String) (ports : List Nat) : Prop := ∃ port, k.ipt.port text.toList = some port ∧ ∀ p ∈ ports, p = port

/-- The rules of a WolfRun service send all its source ports to the text of its destination ports, so that there
can only be one. Without a service, a list of destinations is paired port by port, and no source port may have two;
any other text is handed on. -/
def Paired : Prop :=
  k.host.gateway.isSome = true ∧
  match k.host.backends m with
  | some (backends, _) =>
    (∀ b ∈ backends, k.ipt.address b = true) ∧
      if m.hasPorts = true then k.Matches (m.ports.getD "") m.sourcePorts ∧ k.Sends ((m.destPorts.or m.ports).getD "") m.targetPorts
      else m.ports.getD "" = ""
  | none =>
    if m.hasPorts = true then
      if m.hasPortTranslation = true ∧ ',' ∈ (m.destPorts.getD "").toList then
        ∀ one ∈ m.sourcePorts.zip m.targetPorts, ∀ other ∈ m.sourcePorts.zip m.targetPorts, one.1 = other.1 → one.2 = other.2
      else k.Matches (m.ports.getD "") m.sourcePorts ∧ (m.hasPortTranslation = true → k.Sends (m.destPorts.getD "") m.targetPorts)
    else m.ports.getD "" = "" ∨ m.protocol = "all"

end Kernel

section
variable {k : Kernel} {m : IpMapping} {cs : List Command} {c : Command} {t : Tables} {chain : Chain}

def Kernel.rules (k : Kernel) (cs : List Command) (chain : Chain) : List Rule :=
  (cs.filter fun c => c.chain = chain).filterMap fun c => k.ipt.read c.args .blank

theorem denoted_iff {args : List String} : (∃ spec, k.host.denotes args = .ok spec) ↔ ∃ r, k.ipt.read args .blank = some r := by
  have same := k.faithful args
  split at same
  · rename_i spec denoted
    obtain ⟨r, read, -⟩ := same
    exact ⟨fun _ => ⟨r, read⟩, fun _ => ⟨spec, denoted⟩⟩
  · rename_i stderr refused
    rw [refused, same]
    constructor <;> rintro ⟨_, wrong⟩ <;> cases wrong

theorem denoted_effect {args : List String} {spec : String} {r : Rule} (denoted : k.host.denotes args = .ok spec)
    (read : k.ipt.read args .blank = some r) : k.effect spec = r.effect := by
  have same := k.faithful args
  rw [denoted] at same
  obtain ⟨r', read', acts⟩ := same
  cases read.symm.trans read'
  exact acts

theorem runAll_iff : (k.host.runAll cs t).1 = .ok () ↔ ∀ c ∈ cs, ∃ r, k.ipt.read c.args .blank = some r := by
  constructor
  · intro ran
    induction cs generalizing t with
    | nil => exact fun c member => nomatch member
    | cons c rest ih =>
      obtain ⟨denoted, onward⟩ := runAll_cons rest ran
      rw [onward] at ran
      intro d member
      rcases List.mem_cons.mp member with rfl | later
      · exact denoted_iff.mp denoted
      · exact ih ran d later
  · intro readable
    refine runAll_ok fun c member => ?_
    obtain ⟨spec, denoted⟩ := denoted_iff.mpr (readable c member)
    rw [denoted]
    rfl

/-- Where rules go to the end of a chain, and those that are checked leave nothing to chance, what the commands do
is as if they all went there. -/
theorem runAll_outcomes (ran : (k.host.runAll cs t).1 = .ok ()) (bottom : ∀ c ∈ cs, c.chain = chain → c.top = false)
    (sure : ∀ c ∈ cs, c.checked = true → ∀ r, k.ipt.read c.args .blank = some r → r.chance = false) (conn : Connection) :
    outcomes (((k.host.runAll cs t).2 chain).map k.effect) conn =
      outcomes ((t chain).map k.effect ++ (k.rules cs chain).map Rule.effect) conn := by
  induction cs generalizing t with
  | nil => rw [Kernel.rules, List.filter_nil, List.filterMap_nil, List.map_nil, List.append_nil]; rfl
  | cons c rest ih =>
    obtain ⟨⟨spec, denoted⟩, onward⟩ := runAll_cons rest ran
    obtain ⟨r, read⟩ := denoted_iff.mp ⟨spec, denoted⟩
    rw [onward] at ran
    have later := ih ran (fun d member => bottom d (List.mem_cons_of_mem _ member)) fun d member => sure d (List.mem_cons_of_mem _ member)
    rw [onward, later]
    by_cases here : c.chain = chain
    · subst here
      have added : k.rules (c :: rest) c.chain = r :: k.rules rest c.chain := by
        rw [Kernel.rules, List.filter_cons, if_pos (decide_eq_true rfl)]
        exact List.filterMap_cons_some read
      rw [run_here denoted, bottom c List.mem_cons_self rfl, added, List.map_cons, ← denoted_effect denoted read]
      split
      · rename_i known
        refine (outcomes_again (List.mem_map_of_mem known.2) ?_).symm
        rw [denoted_effect denoted read]
        exact effect_sure (sure c List.mem_cons_self known.1 r read)
      · rw [if_neg Bool.false_ne_true, List.map_append, List.map_singleton, List.append_assoc, List.singleton_append]
    · have other : k.rules (c :: rest) chain = k.rules rest chain := by
        rw [Kernel.rules, List.filter_cons, if_neg (by simpa using here), Kernel.rules]
      rw [run_other here, other]

namespace IpMapping

def proto (m : IpMapping) : Option String := if m.protocol = "all" then none else some m.protocol

def given (m : IpMapping) (ports : Option String) : Option String := ports.filter fun s => s ≠ "" ∧ m.protocol ≠ "all"

end IpMapping

/-- The ports that a rule matches, which are all of them where no text is put into it. -/
def Kernel.seen (k : Kernel) (m : IpMapping) (ports : Option String) : Option (Option (List (Nat × Nat))) :=
  match m.given ports with
  | none => some none
  | some text => (k.spans text).map some

variable {rest : List String} {ports : Option String} {ip target : String}

theorem read_base (named : m.protocol ∈ ["all", "tcp", "udp"]) : k.ipt.read (["-d", ip] ++ m.protoArgs ++ rest) .blank =
    if k.ipt.address ip = true then k.ipt.read rest ⟨some ip, m.proto, none, false, none⟩ else none := by
  rw [IpMapping.protoArgs, IpMapping.proto]
  simp only [List.mem_cons, List.not_mem_nil, or_false] at named
  rcases named with all | tcp
  · simp [all, Rule.blank]
  · have other : m.protocol ≠ "all" := by
      rintro same
      simp [same] at tcp
    simp [other, tcp, Rule.blank]

theorem read_ports {r : Rule} (same : r.proto = m.proto) : k.ipt.read (portArgs ports m.protocol ++ rest) { r with ports := none } =
    (k.seen m ports).bind fun spans => k.ipt.read rest { r with ports := spans } := by
  cases ports with
  | none => rfl
  | some text =>
    rw [portArgs, Kernel.seen, IpMapping.given]
    by_cases put : text ≠ "" ∧ m.protocol ≠ "all"
    · have proto : r.proto.isNone = false := by rw [same, IpMapping.proto, if_neg put.2]; rfl
      rw [if_pos put, Option.filter_some, if_pos (decide_eq_true put), buildPortArgs]
      dsimp only
      rw [Option.bind_map, Kernel.spans]
      split
      · simp [proto]
      · simp [proto]
    · rw [if_neg put, Option.filter_some, if_neg (by simpa using put)]
      rfl

def Kernel.dnat (k : Kernel) (m : IpMapping) (ports : Option String) (chance : Bool) (target : String) : Option Rule :=
  (k.seen m ports).bind fun spans => (k.ipt.toDestination target).bind fun dest =>
    if dest.ports.isSome && m.proto.isNone then none else some ⟨some m.publicIp, m.proto, spans, chance, some dest⟩

theorem dnat_sure {chance : Bool} {r : Rule} (made : k.dnat m ports chance target = some r) : r.chance = chance := by
  rw [Kernel.dnat] at made
  obtain ⟨spans, -, made⟩ := Option.bind_eq_some_iff.mp made
  obtain ⟨dest, -, made⟩ := Option.bind_eq_some_iff.mp made
  split at made
  · cases made
  · cases made
    rfl

/-- The ports that are matched on the way in, those on the way on, and the target. -/
abbrev Spec := Option String × Option String × String

def IpMapping.quartets (m : IpMapping) (g : String) (specs : List Spec) : List Command :=
  specs.flatMap fun s => m.quartet g (portArgs s.1 m.protocol) (portArgs s.2.1 m.protocol) s.2.2

theorem quartets_bottom {g : String} {specs : List Spec} (inward : chain ∈ [Chain.prerouting, .output]) :
    ∀ c ∈ m.quartets g specs, c.chain = chain → c.top = false := by
  rintro c member rfl
  obtain ⟨s, -, among⟩ := List.mem_flatMap.mp member
  simp only [IpMapping.quartet, List.mem_cons, List.not_mem_nil, or_false] at among inward
  rcases among with rfl | rfl | rfl | rfl <;> simp at inward ⊢

structure Accepted (k : Kernel) (m : IpMapping) : Prop where
  enabled : m.enabled = true
  source : k.ipt.address m.publicIp = true
  target : k.ipt.address m.wolfnetIp = true
  named : m.protocol ∈ ["all", "tcp", "udp"]
  typed : m.hasPorts = true → m.protocol ≠ "all"
  aimed : m.hasPorts = false → m.destPorts = none
  shown : ∀ d, m.destPorts = some d → trim d ≠ ""
  sources : m.hasPorts = true → ∃ ports, parsePortList (m.ports.getD "") = .ok ports
  targets : ∀ d, m.destPorts = some d → ∃ ports, parsePortList d = .ok ports ∧ ports.length = m.sourcePorts.length

variable (accepted : Accepted k m)
include accepted

theorem read_dnat_args :
    k.ipt.read (["-d", m.publicIp] ++ m.protoArgs ++ portArgs ports m.protocol ++ ["-j", "DNAT", "--to-destination", target]) .blank =
      k.dnat m ports false target := by
  rw [List.append_assoc, read_base accepted.named, if_pos accepted.source, @read_ports k m _ ports ⟨some m.publicIp, m.proto, none, false, none⟩ rfl]
  simp [Kernel.dnat]

theorem read_distribution {policy comment : String} {remaining : Nat} :
    k.ipt.read (["-d", m.publicIp] ++ m.protoArgs ++ portArgs ports m.protocol ++ k.host.distribution policy remaining ++
      ["-j", "DNAT", "--to-destination", target, "-m", "comment", "--comment", comment]) .blank =
      k.dnat m ports (decide (1 < remaining)) target := by
  rw [List.append_assoc, List.append_assoc, read_base accepted.named, if_pos accepted.source,
    @read_ports k m _ ports ⟨some m.publicIp, m.proto, none, false, none⟩ rfl, Host.distribution, Kernel.dnat]
  congr 1
  funext spans
  by_cases several : 1 < remaining
  · rw [if_pos several, decide_eq_true several]
    split <;> simp [Syntax.read_idle]
  · rw [if_neg several, decide_eq_false several]
    simp [Syntax.read_idle]

theorem read_snat_args (address : k.ipt.address ip = true) {g : String} (own : k.ipt.address g = true) :
    k.ipt.read (["-d", ip] ++ m.protoArgs ++ portArgs ports m.protocol ++ ["-j", "SNAT", "--to-source", g]) .blank =
      (k.seen m ports).map fun spans => ⟨some ip, m.proto, spans, false, none⟩ := by
  rw [List.append_assoc, read_base accepted.named, if_pos address, @read_ports k m _ ports ⟨some ip, m.proto, none, false, none⟩ rfl]
  simp [own, Option.map_eq_bind]

theorem read_forward_args (address : k.ipt.address ip = true) :
    k.ipt.read (["-d", ip] ++ m.protoArgs ++ portArgs ports m.protocol ++ ["-m", "conntrack", "--ctstate", "DNAT", "-j", "ACCEPT"]) .blank =
      (k.seen m ports).map fun spans => ⟨some ip, m.proto, spans, false, none⟩ := by
  rw [List.append_assoc, read_base accepted.named, if_pos address, @read_ports k m _ ports ⟨some ip, m.proto, none, false, none⟩ rfl]
  simp [Syntax.read_idle, Option.map_eq_bind]

theorem quartets_rules {g : String} {specs : List Spec} (inward : chain ∈ [Chain.prerouting, .output]) :
    k.rules (m.quartets g specs) chain = specs.filterMap fun s => k.dnat m s.1 false s.2.2 := by
  have one : ∀ s : Spec, (m.quartet g (portArgs s.1 m.protocol) (portArgs s.2.1 m.protocol) s.2.2).filter (fun c => c.chain = chain) =
      [⟨chain, false, true, ["-d", m.publicIp] ++ m.protoArgs ++ portArgs s.1 m.protocol ++ ["-j", "DNAT", "--to-destination", s.2.2]⟩] := by
    intro s
    simp only [List.mem_cons, List.not_mem_nil, or_false] at inward
    rcases inward with rfl | rfl <;> rfl
  rw [Kernel.rules, IpMapping.quartets, List.filter_flatMap]
  induction specs with
  | nil => rfl
  | cons s rest ih =>
    rw [List.flatMap_cons, one, List.filterMap_append, ih, List.filterMap_cons]
    rw [List.filterMap_cons, read_dnat_args accepted]
    split <;> rfl

variable {g : String} (own : k.ipt.address g = true)
include own

theorem quartet_reads (s : Spec) : (∀ c ∈ m.quartet g (portArgs s.1 m.protocol) (portArgs s.2.1 m.protocol) s.2.2, ∃ r,
      k.ipt.read c.args .blank = some r) ↔ (∃ r, k.dnat m s.1 false s.2.2 = some r) ∧ ∃ spans, k.seen m s.2.1 = some spans := by
  simp only [IpMapping.quartet, List.forall_mem_cons, List.not_mem_nil, false_implies, implies_true, and_true,
    read_dnat_args accepted, read_snat_args accepted accepted.target own, read_forward_args accepted accepted.target]
  simp only [Option.map_eq_some_iff]
  constructor
  · rintro ⟨first, -, ⟨-, spans, seen, -⟩, -⟩
    exact ⟨first, spans, seen⟩
  · rintro ⟨first, spans, seen⟩
    exact ⟨first, first, ⟨_, spans, seen, rfl⟩, ⟨_, spans, seen, rfl⟩⟩

theorem quartets_reads (specs : List Spec) : (∀ c ∈ m.quartets g specs, ∃ r, k.ipt.read c.args .blank = some r) ↔
    ∀ s ∈ specs, (∃ r, k.dnat m s.1 false s.2.2 = some r) ∧ ∃ spans, k.seen m s.2.1 = some spans := by
  rw [IpMapping.quartets]
  constructor
  · exact fun all s member => (quartet_reads accepted own s).mp fun c among => all c (List.mem_flatMap.mpr ⟨s, member, among⟩)
  · intro all c member
    obtain ⟨s, listed, among⟩ := List.mem_flatMap.mp member
    exact (quartet_reads accepted own s).mpr (all s listed) c among

theorem quartets_sure {specs : List Spec} : ∀ c ∈ m.quartets g specs, c.checked = true → ∀ r, k.ipt.read c.args .blank = some r →
    r.chance = false := by
  intro c member _ r read
  obtain ⟨s, -, among⟩ := List.mem_flatMap.mp member
  simp only [IpMapping.quartet, List.mem_cons, List.not_mem_nil, or_false] at among
  rcases among with rfl | rfl | rfl | rfl
  · rw [read_dnat_args accepted] at read
    exact dnat_sure read
  · rw [read_dnat_args accepted] at read
    exact dnat_sure read
  · rw [read_snat_args accepted accepted.target own] at read
    obtain ⟨spans, -, rfl⟩ := Option.map_eq_some_iff.mp read
    rfl
  · rw [read_forward_args accepted accepted.target] at read
    obtain ⟨spans, -, rfl⟩ := Option.map_eq_some_iff.mp read
    rfl

/-! ### Rules that share the load -/

/-- The end of the target that is put into the rules of a service. -/
def IpMapping.vipTarget (m : IpMapping) (backend : String) : String :=
  if (m.destPorts.or m.ports).getD "" ≠ "" then backend ++ ":" ++ (m.destPorts.or m.ports).getD "" else backend

omit own in
theorem vip_rules {backends : List String} {policy : String} (inward : chain ∈ [Chain.prerouting, .output]) :
    k.rules (k.host.vipCommands m backends policy g) chain = backends.zipIdx.filterMap fun s =>
      k.dnat m m.ports (decide (1 < backends.length - s.2)) (m.vipTarget s.1) := by
  have tail : (backends.flatMap fun backend =>
      [Command.mk .postrouting false false (["-d", backend] ++ m.protoArgs ++
          ["-m", "comment", "--comment", m.vipComment, "-j", "SNAT", "--to-source", g]),
        ⟨.forward, true, false, ["-d", backend] ++ m.protoArgs ++
          ["-m", "conntrack", "--ctstate", "DNAT", "-m", "comment", "--comment", m.vipComment, "-j", "ACCEPT"]⟩]).filter
      (fun c => c.chain = chain) = [] := by
    rw [List.filter_eq_nil_iff]
    intro c member
    obtain ⟨backend, -, among⟩ := List.mem_flatMap.mp member
    simp only [List.mem_cons, List.not_mem_nil, or_false] at among inward
    rcases inward with rfl | rfl <;> rcases among with rfl | rfl <;> simp
  rw [Kernel.rules, Host.vipCommands]
  dsimp only
  rw [List.filter_append, List.filter_append, tail, List.append_nil]
  simp only [List.mem_cons, List.not_mem_nil, or_false] at inward
  rcases inward with rfl | rfl
  · simp only [List.filter_map, Function.comp_def, reduceCtorEq, decide_true, decide_false, List.filter_true, List.filter_false,
      List.map_nil, List.append_nil, List.filterMap_map, read_distribution accepted, IpMapping.vipTarget]
  · simp only [List.filter_map, Function.comp_def, reduceCtorEq, decide_true, decide_false, List.filter_true, List.filter_false,
      List.map_nil, List.nil_append, List.filterMap_map, read_distribution accepted, IpMapping.vipTarget]

theorem vip_reads {backends : List String} {policy : String} :
    (∀ c ∈ k.host.vipCommands m backends policy g, ∃ r, k.ipt.read c.args .blank = some r) ↔
      (∀ b ∈ backends, k.ipt.address b = true) ∧
        ∀ s ∈ backends.zipIdx, ∃ r, k.dnat m m.ports (decide (1 < backends.length - s.2)) (m.vipTarget s.1) = some r := by
  rw [Host.vipCommands]
  simp only [List.forall_mem_append, List.forall_mem_map, List.forall_mem_flatMap, List.forall_mem_cons, List.not_mem_nil, false_implies,
    implies_true, and_true, read_distribution accepted, IpMapping.vipTarget]
  have onward : ∀ b, (∃ r, k.ipt.read (["-d", b] ++ m.protoArgs ++
        ["-m", "comment", "--comment", m.vipComment, "-j", "SNAT", "--to-source", g]) .blank = some r) ↔ k.ipt.address b = true := by
    intro b
    rw [read_base accepted.named]
    split
    · rename_i address
      simp [address, own, Syntax.read_idle]
    · rename_i refused
      simp [refused]
  have through : ∀ b, (∃ r, k.ipt.read (["-d", b] ++ m.protoArgs ++
      ["-m", "conntrack", "--ctstate", "DNAT", "-m", "comment", "--comment", m.vipComment, "-j", "ACCEPT"]) .blank = some r) ↔
        k.ipt.address b = true := by
    intro b
    rw [read_base accepted.named]
    split
    · rename_i address
      simp [address, Syntax.read_idle]
    · rename_i refused
      simp [refused]
  simp only [onward, through, and_self]
  exact And.comm

end

section
variable {k : Kernel} {m : IpMapping} {cs : List Command} {ports : Option String} {ip : String} {c : Connection}
variable {spans : Option (List (Nat × Nat))} {D : Option (Nat × Nat)} {targets backends : List String}

/-- Rules with one match that send connections to one of the backends each. -/
def IpMapping.shared (m : IpMapping) (spans : Option (List (Nat × Nat))) (D : Option (Nat × Nat)) (backends : List String) : List Rule :=
  backends.zipIdx.map fun s => ⟨some m.publicIp, m.proto, spans, decide (1 < backends.length - s.2), some ⟨s.1, D⟩⟩

def Meets (spans : Option (List (Nat × Nat))) (port : Nat) : Prop := ∀ list ∈ spans, ∃ s ∈ list, s.1 ≤ port ∧ port ≤ s.2

instance (port : Nat) : Decidable (Meets spans port) := inferInstanceAs (Decidable (∀ list ∈ spans, ∃ s ∈ list, s.1 ≤ port ∧ port ≤ s.2))

theorem fits_meets (here : c.dst = m.publicIp) {chance : Bool} {d : Option Destination} :
    (⟨some m.publicIp, m.proto, spans, chance, d⟩ : Rule).fits c = true ↔ m.covers c = true ∧ Meets spans c.port := by
  rw [fits_iff, IpMapping.covers, IpMapping.proto, Meets]
  by_cases all : m.protocol = "all"
  · simp [all, here]
  · simp [all, here]

theorem shared_outcomes (here : c.dst = m.publicIp) (some_ : backends ≠ []) :
    outcomes ((m.shared spans D backends).map Rule.effect) c =
      if m.covers c = true ∧ Meets spans c.port then backends.map fun b => some ⟨b, D⟩ else [none] := by
  by_cases fit : m.covers c = true ∧ Meets spans c.port
  · rw [if_pos fit]
    have taken : ∀ chance b, (⟨some m.publicIp, m.proto, spans, chance, some ⟨b, D⟩⟩ : Rule).effect c =
        if chance then [some ⟨b, D⟩, none] else [some ⟨b, D⟩] := by
      intro chance b
      rw [Rule.effect, if_pos ((fits_meets here).mpr fit)]
    have all : ∀ (list : List String) (i n : Nat), list ≠ [] → n = i + list.length →
        outcomes (((list.zipIdx i).map fun s => (⟨some m.publicIp, m.proto, spans, decide (1 < n - s.2), some ⟨s.1, D⟩⟩ : Rule)).map
          Rule.effect) c = list.map fun b => some ⟨b, D⟩ := by
      intro list
      induction list with
      | nil => exact fun _ _ wrong => absurd rfl wrong
      | cons b rest ih =>
        intro i n _ count
        rw [List.zipIdx_cons, List.map_cons, List.map_cons, outcomes, taken, List.map_cons]
        cases rest with
        | nil =>
          have last : decide (1 < n - i) = false := decide_eq_false (by simp at count; omega)
          rw [last]
          rfl
        | cons b' rest =>
          have more : decide (1 < n - i) = true := decide_eq_true (by simp at count; omega)
          rw [more, ← ih (i + 1) n (List.cons_ne_nil _ _) (by rw [count, List.length_cons]; omega)]
          simp
    exact all backends 0 backends.length some_ (Nat.zero_add _).symm
  · rw [if_neg fit]
    have skipped : ∀ e ∈ (m.shared spans D backends).map Rule.effect, e c = [none] := by
      intro e member
      obtain ⟨r, made, rfl⟩ := List.mem_map.mp member
      obtain ⟨s, -, rfl⟩ := List.mem_map.mp made
      rw [Rule.effect, if_neg fun fits => fit ((fits_meets here).mp fits)]
    have whole := @outcomes_past _ [] c skipped
    rwa [List.append_nil] at whole

theorem lands_iff {port dest : Nat} (member : ip ∈ targets) : Lands targets port dest (some ⟨ip, D⟩) ↔
    (D = none ∧ dest = port) ∨ D = some (dest, dest) := by
  rw [Lands]
  constructor
  · rintro ⟨_, -, ⟨same, stays⟩ | same⟩
    · cases same
      exact .inl ⟨rfl, stays⟩
    · cases same
      exact .inr rfl
  · rintro (⟨rfl, stays⟩ | rfl)
    · exact ⟨ip, member, .inl ⟨rfl, stays⟩⟩
    · exact ⟨ip, member, .inr rfl⟩

/-- A connection that the mapping is about. -/
def IpMapping.sample (m : IpMapping) (port : Nat) : Connection := ⟨m.publicIp, if m.protocol = "all" then "tcp" else m.protocol, port⟩

theorem covers_sample (port : Nat) : m.covers (m.sample port) = true := by
  rw [IpMapping.covers, IpMapping.sample]
  by_cases all : m.protocol = "all" <;> simp [all]

theorem mem_zip_of_mem {left right : List Nat} (same : left.length = right.length) {p : Nat} (member : p ∈ left) :
    ∃ q, (p, q) ∈ left.zip right := by
  obtain ⟨i, inside, rfl⟩ := List.mem_iff_getElem.mp member
  exact ⟨right.get ⟨i, by omega⟩, List.mem_iff_getElem.mpr ⟨i, by rw [List.length_zip]; omega, by rw [List.getElem_zip]; rfl⟩⟩

variable (some_ : backends ≠ []) (within : ∀ b ∈ backends, b ∈ targets)
include some_ within

theorem shared_ports {list : List (Nat × Nat)} (ported : m.hasPorts = true) (same : m.sourcePorts.length = m.targetPorts.length) :
    (∀ c : Connection, c.dst = m.publicIp → ∀ o ∈ outcomes ((m.shared (some list) D backends).map Rule.effect) c, m.Wants targets c o) ↔
      (∀ p, (∃ s ∈ list, s.1 ≤ p ∧ p ≤ s.2) ↔ p ∈ m.sourcePorts) ∧
        ∀ pair ∈ m.sourcePorts.zip m.targetPorts, (D = none ∧ pair.2 = pair.1) ∨ D = some (pair.2, pair.2) := by
  have meets : ∀ p, Meets (some list) p ↔ ∃ s ∈ list, s.1 ≤ p ∧ p ≤ s.2 := fun p => by simp [Meets]
  obtain ⟨b, first⟩ := List.exists_mem_of_ne_nil backends some_
  constructor
  · intro wants
    have wanted : ∀ p, ∀ o ∈ outcomes ((m.shared (some list) D backends).map Rule.effect) (m.sample p),
        (∀ pair ∈ m.sourcePorts.zip m.targetPorts, pair.1 = p → Lands targets p pair.2 o) ∧ (p ∉ m.sourcePorts → o = none) := by
      intro p o among
      have want := wants (m.sample p) rfl o among
      rwa [IpMapping.Wants, if_pos (covers_sample p), if_pos ported] at want
    have sent : ∀ p, Meets (some list) p → some ⟨b, D⟩ ∈ outcomes ((m.shared (some list) D backends).map Rule.effect) (m.sample p) := by
      intro p met
      rw [shared_outcomes rfl some_, if_pos ⟨covers_sample p, met⟩]
      exact List.mem_map_of_mem first
    have exact_ : ∀ p, (∃ s ∈ list, s.1 ≤ p ∧ p ≤ s.2) ↔ p ∈ m.sourcePorts := by
      intro p
      rw [← meets p]
      constructor
      · intro met
        by_contra other
        cases (wanted p _ (sent p met)).2 other
      · intro member
        by_contra unmet
        obtain ⟨q, paired⟩ := mem_zip_of_mem same member
        have left : none ∈ outcomes ((m.shared (some list) D backends).map Rule.effect) (m.sample p) := by
          rw [shared_outcomes rfl some_, if_neg fun met => unmet met.2]
          exact List.mem_singleton_self _
        obtain ⟨_, -, ⟨wrong, -⟩ | wrong⟩ := (wanted p none left).1 (p, q) paired rfl <;> cases wrong
    refine ⟨exact_, fun pair paired => ?_⟩
    have met := (meets pair.1).mpr ((exact_ pair.1).mpr (List.of_mem_zip paired).1)
    exact (lands_iff (within b first)).mp ((wanted pair.1 _ (sent pair.1 met)).1 pair paired rfl)
  · rintro ⟨exact_, sends⟩ c here o among
    rw [shared_outcomes here some_] at among
    rw [IpMapping.Wants]
    split
    · rename_i covers
      by_cases met : Meets (some list) c.port
      · rw [if_pos ⟨covers, met⟩] at among
        obtain ⟨b, member, rfl⟩ := List.mem_map.mp among
        refine ⟨fun pair paired port => ?_, fun other => absurd ((exact_ c.port).mp ((meets c.port).mp met)) other⟩
        exact (lands_iff (within b member)).mpr (port ▸ sends pair paired)
      · rw [if_neg fun met' => met met'.2] at among
        obtain rfl := List.mem_singleton.mp among
        refine ⟨fun pair paired port => absurd ?_ met, fun _ => rfl⟩
        exact (meets c.port).mpr ((exact_ c.port).mpr (port ▸ (List.of_mem_zip paired).1))
    · rename_i apart
      rw [if_neg fun met => apart met.1] at among
      exact List.mem_singleton.mp among

theorem shared_all (ported : m.hasPorts = false) :
    (∀ c : Connection, c.dst = m.publicIp → ∀ o ∈ outcomes ((m.shared spans D backends).map Rule.effect) c, m.Wants targets c o) ↔
      (∀ p, Meets spans p) ∧ D = none := by
  obtain ⟨b, first⟩ := List.exists_mem_of_ne_nil backends some_
  have none_ : ¬m.hasPorts = true := by rw [ported]; exact Bool.false_ne_true
  constructor
  · intro wants
    have wanted : ∀ p, ∀ o ∈ outcomes ((m.shared spans D backends).map Rule.effect) (m.sample p), Lands targets p p o := by
      intro p o among
      have want := wants (m.sample p) rfl o among
      rwa [IpMapping.Wants, if_pos (covers_sample p), if_neg none_] at want
    have all : ∀ p, Meets spans p := by
      intro p
      by_contra unmet
      have left : none ∈ outcomes ((m.shared spans D backends).map Rule.effect) (m.sample p) := by
        rw [shared_outcomes rfl some_, if_neg fun met => unmet met.2]
        exact List.mem_singleton_self _
      obtain ⟨_, -, ⟨wrong, -⟩ | wrong⟩ := wanted p none left <;> cases wrong
    refine ⟨all, ?_⟩
    have at_ : ∀ p, (D = none ∧ p = p) ∨ D = some (p, p) := by
      intro p
      refine (lands_iff (within b first)).mp (wanted p _ ?_)
      rw [shared_outcomes rfl some_, if_pos ⟨covers_sample p, all p⟩]
      exact List.mem_map_of_mem first
    rcases at_ 0 with ⟨stays, -⟩ | zero
    · exact stays
    · rcases at_ 1 with ⟨stays, -⟩ | one
      · exact stays
      · cases zero.symm.trans one
  · rintro ⟨all, rfl⟩ c here o among
    rw [shared_outcomes here some_] at among
    rw [IpMapping.Wants]
    split
    · rename_i covers
      rw [if_pos ⟨covers, all c.port⟩] at among
      obtain ⟨b, member, rfl⟩ := List.mem_map.mp among
      exact (lands_iff (within b member)).mpr (.inl ⟨rfl, rfl⟩)
    · rename_i apart
      rw [if_neg fun met => apart met.1] at among
      exact List.mem_singleton.mp among

end

section
variable {m : IpMapping} {c : Connection} {pairs : List (Nat × Nat)}

def IpMapping.pairRule (m : IpMapping) (pair : Nat × Nat) : Rule :=
  ⟨some m.publicIp, m.proto, some [(pair.1, pair.1)], false, some ⟨m.wolfnetIp, some (pair.2, pair.2)⟩⟩

theorem pairRule_fits (here : c.dst = m.publicIp) (pair : Nat × Nat) :
    (m.pairRule pair).fits c = true ↔ m.covers c = true ∧ pair.1 = c.port := by
  rw [IpMapping.pairRule, fits_meets here, Meets]
  simp only [Option.mem_def, Option.some.injEq, forall_eq', List.mem_singleton, exists_eq_left]
  exact and_congr_right fun _ => ⟨fun both => Nat.le_antisymm both.1 both.2, fun same => ⟨Nat.le_of_eq same, Nat.le_of_eq same.symm⟩⟩

theorem paired_outcomes (here : c.dst = m.publicIp) : outcomes ((pairs.map m.pairRule).map Rule.effect) c =
    [if m.covers c = true then (pairs.find? fun pair => pair.1 = c.port).map fun pair => ⟨m.wolfnetIp, some (pair.2, pair.2)⟩ else none] := by
  induction pairs with
  | nil =>
    rw [List.map_nil, List.map_nil, outcomes, List.find?_nil, Option.map_none, ite_self]
  | cons pair rest ih =>
    rw [List.map_cons, List.map_cons]
    by_cases fits : (m.pairRule pair).fits c = true
    · obtain ⟨covers, port⟩ := (pairRule_fits here pair).mp fits
      rw [outcomes_taken (by rw [Rule.effect, if_pos fits]; rfl), if_pos covers, List.find?_cons, decide_eq_true port]
      rfl
    · rw [outcomes_skip (by rw [Rule.effect, if_neg fits]), ih]
      by_cases covers : m.covers c = true
      · have other : pair.1 ≠ c.port := fun port => fits ((pairRule_fits here pair).mpr ⟨covers, port⟩)
        rw [List.find?_cons, decide_eq_false other]
      · rw [if_neg covers, if_neg covers]

theorem paired_ports (ported : m.hasPorts = true) :
    (∀ c : Connection, c.dst = m.publicIp → ∀ o ∈ outcomes (((m.sourcePorts.zip m.targetPorts).map m.pairRule).map Rule.effect) c,
      m.Wants [m.wolfnetIp] c o) ↔
        ∀ one ∈ m.sourcePorts.zip m.targetPorts, ∀ other ∈ m.sourcePorts.zip m.targetPorts, one.1 = other.1 → one.2 = other.2 := by
  constructor
  · intro wants one first other second port
    obtain ⟨found, finds⟩ : ∃ found, (m.sourcePorts.zip m.targetPorts).find? (fun pair => pair.1 = one.1) = some found :=
      Option.isSome_iff_exists.mp (List.find?_isSome.mpr ⟨one, first, decide_eq_true rfl⟩)
    have want := wants (m.sample one.1) rfl
    rw [paired_outcomes rfl, if_pos (covers_sample one.1)] at want
    have lands := want _ (List.mem_singleton_self _)
    have goes : (m.sourcePorts.zip m.targetPorts).find? (fun pair => pair.1 = (m.sample one.1).port) = some found := finds
    rw [goes, IpMapping.Wants, if_pos (covers_sample one.1), if_pos ported] at lands
    have all : ∀ pair ∈ m.sourcePorts.zip m.targetPorts, pair.1 = one.1 → pair.2 = found.2 := by
      intro pair member at_
      rcases (lands_iff (List.mem_singleton_self _)).mp (lands.1 pair member at_) with ⟨wrong, -⟩ | sent
      · cases wrong
      · simpa using (Option.some.inj sent).symm
    rw [all one first rfl, all other second port.symm]
  · intro single c here o among
    rw [paired_outcomes here] at among
    obtain rfl := List.mem_singleton.mp among
    rw [IpMapping.Wants]
    split
    · rename_i covers
      refine ⟨fun pair paired port => ?_, fun absent => ?_⟩
      · obtain ⟨found, finds⟩ : ∃ found, (m.sourcePorts.zip m.targetPorts).find? (fun pair => pair.1 = c.port) = some found :=
          Option.isSome_iff_exists.mp (List.find?_isSome.mpr ⟨pair, paired, decide_eq_true port⟩)
        have at_ : found.1 = c.port := by simpa using List.find?_some finds
        rw [finds, Option.map_some, lands_iff (List.mem_singleton_self _), single pair paired found (List.mem_of_find?_eq_some finds) (port.trans at_.symm)]
        exact .inr rfl
      · rw [List.find?_eq_none.mpr fun pair paired => ?_]
        · rfl
        · simpa using fun port : pair.1 = c.port => absent (port ▸ (List.of_mem_zip paired).1)
    · rfl

end

section
variable {text : String} {ports : List Nat} {chars : List Char}

theorem mem_splitOn {c mark : Char} (member : c ∈ chars) (other : c ≠ mark) : ∃ part ∈ splitOn mark chars, c ∈ part := by
  induction chars with
  | nil => cases member
  | cons first rest ih =>
    rw [splitOn]
    split
    · rename_i same
      rcases List.mem_cons.mp member with rfl | later
      · exact absurd same other
      · obtain ⟨part, listed, within⟩ := ih later
        exact ⟨part, List.mem_cons_of_mem _ listed, within⟩
    · cases shape : splitOn mark rest with
      | nil => exact absurd shape splitOn_ne_nil
      | cons part parts =>
        rcases List.mem_cons.mp member with rfl | later
        · exact ⟨_, List.mem_cons_self, List.mem_cons_self⟩
        · obtain ⟨part', listed, within⟩ := ih later
          rw [shape] at listed
          rcases List.mem_cons.mp listed with rfl | further
          · exact ⟨_, List.mem_cons_self, List.mem_cons_of_mem _ within⟩
          · exact ⟨part', List.mem_cons_of_mem _ further, within⟩

theorem mem_trim {c : Char} (member : c ∈ text.toList) (dark : isWhitespace c = false) : c ∈ (trim text).toList := by
  have kept : ∀ list : List Char, c ∈ list → c ∈ list.dropWhile isWhitespace := by
    intro list
    induction list with
    | nil => exact fun member => member
    | cons first rest ih =>
      intro member
      rw [List.dropWhile_cons]
      split
      · rename_i white
        rcases List.mem_cons.mp member with rfl | later
        · rw [dark] at white
          cases white
        · exact ih later
      · exact member
  rw [trim, String.toList_ofList]
  exact List.mem_reverse.mpr (kept _ (List.mem_reverse.mpr (kept _ member)))

theorem parseU32_undashed {value : Nat} (read : parseU32 chars = some value) : '-' ∉ chars := by
  have digits : ∀ list : List Char, (∃ value, readNumber 10 list.length 4294967295 true list = some (value, [])) → '-' ∉ list := by
    rintro list ⟨value, read⟩ member
    rw [readNumber] at read
    split at read
    · cases read
    · split at read
      · cases read
      · have all : list.length ≤ (list.takeWhile fun c => (digitValue 10 c).isSome).length :=
          List.drop_eq_nil_iff.mp (congrArg Prod.snd (Option.some.inj read))
        have whole := (List.takeWhile_prefix (p := fun c => (digitValue 10 c).isSome)).eq_of_length_le all
        have read := List.takeWhile_eq_self_iff.mp whole '-' member
        exact absurd read (by decide)
  by_cases plus : chars.head? = some '+'
  · obtain ⟨rest, rfl⟩ := List.head?_eq_some_iff.mp plus
    unfold parseU32 at read
    dsimp only at read
    split at read
    · rename_i number
      exact fun member => digits rest ⟨_, number⟩ ((List.mem_cons.mp member).resolve_left (by decide))
    · cases read
  · rw [parseU32_unsigned plus] at read
    split at read
    · rename_i number
      exact digits chars ⟨_, number⟩
    · cases read

theorem parsePort_ok {port : Nat} (read : parsePort text = .ok port) : '-' ∉ text.toList ∧ port ≤ 65535 := by
  rw [parsePort] at read
  split at read
  · rename_i found
    cases read
    obtain ⟨number, small⟩ := Option.filter_eq_some_iff.mp found
    exact ⟨parseU32_undashed number, of_decide_eq_true small⟩
  · cases read

theorem parsePortPart_ok (read : parsePortPart text = .ok ports) : '-' ∉ text.toList ∧ ∀ p ∈ ports, p ≤ 65535 := by
  rw [parsePortPart] at read
  split at read
  · rename_i nothing
    cases read
    rw [nothing]
    exact ⟨List.not_mem_nil, fun _ member => nomatch member⟩
  · split at read
    · split at read
      · rename_i lo hi shape
        cases low : parsePort (trim (String.ofList lo)) with
        | error e =>
          rw [low] at read
          cases read
        | ok l =>
          cases high : parsePort (trim (String.ofList hi)) with
          | error e =>
            rw [low, high] at read
            cases read
          | ok h =>
            rw [low, high] at read
            refine ⟨fun dash => ?_, fun p member => ?_⟩
            · obtain ⟨part, listed, within⟩ := mem_splitOn dash (by decide : '-' ≠ ':')
              rw [shape] at listed
              have trimmed : ∀ list : List Char, '-' ∈ list → '-' ∈ (trim (String.ofList list)).toList := fun list member =>
                mem_trim (by rwa [String.toList_ofList]) (by decide)
              rcases List.mem_cons.mp listed with rfl | second
              · exact (parsePort_ok low).1 (trimmed _ within)
              · obtain rfl := List.mem_singleton.mp second
                exact (parsePort_ok high).1 (trimmed _ within)
            · change (if h < l then _ else _) = _ at read
              split at read
              · cases read
              · change (if 1000 < h - l then _ else _) = _ at read
                split at read
                · cases read
                · cases read
                  obtain ⟨i, inside, rfl⟩ := List.mem_map.mp member
                  have top := (parsePort_ok high).2
                  have within := List.mem_range.mp inside
                  omega
      · cases read
    · cases number : parsePort text with
      | error e =>
        rw [number] at read
        cases read
      | ok port =>
        rw [number] at read
        cases read
        obtain ⟨plain, small⟩ := parsePort_ok number
        exact ⟨plain, fun p member => by rwa [List.mem_singleton.mp member]⟩

theorem parsePortList_ok (read : parsePortList text = .ok ports) : '-' ∉ text.toList ∧ ∀ p ∈ ports, p ≤ 65535 := by
  have all : ∀ (parts : List (List Char)) (before after : List Nat), (∀ p ∈ before, p ≤ 65535) →
      (parts.foldlM (fun result part => do return result ++ (← parsePortPart (trim (String.ofList part)))) before : Except String _) = .ok after →
      (∀ part ∈ parts, '-' ∉ part) ∧ ∀ p ∈ after, p ≤ 65535 := by
    intro parts
    induction parts with
    | nil =>
      rintro before after small read
      cases read
      exact ⟨fun _ member => (List.not_mem_nil member).elim, small⟩
    | cons part rest ih =>
      intro before after small read
      rw [List.foldlM_cons] at read
      cases found : parsePortPart (trim (String.ofList part)) with
      | error e =>
        rw [found] at read
        cases read
      | ok more =>
        rw [found] at read
        obtain ⟨plain, within⟩ := parsePortPart_ok found
        obtain ⟨others, last⟩ := ih (before ++ more) after (fun p member => (List.mem_append.mp member).elim (small p) (within p)) read
        refine ⟨fun part' listed => ?_, last⟩
        rcases List.mem_cons.mp listed with rfl | later
        · exact fun dash => plain (mem_trim (by rwa [String.toList_ofList]) (by decide))
        · exact others part' later
  obtain ⟨plain, small⟩ := all _ [] ports (fun _ member => (List.not_mem_nil member).elim) read
  refine ⟨fun dash => ?_, small⟩
  obtain ⟨part, listed, within⟩ := mem_splitOn dash (by decide : '-' ≠ ',')
  exact plain part listed within

end

/-! ### When ports are paired -/

section
variable {k : Kernel} {m : IpMapping} {cs : List Command} {ports : Option String} {text ip : String} {chance : Bool} {n : Nat}

theorem purged_nothing : k.host.purgeMappingRules m (fun _ => []) = fun _ => [] := by
  funext chain
  rw [purgeMappingRules_at, List.eq_nil_iff_forall_not_mem]
  exact fun spec member => List.not_mem_nil (Purges.sweep_mem (Purges.sweep_mem member))

theorem translates_iff {rules : List Rule} (enabled : m.enabled = true) (all : k.host.commands m = .ok cs)
    (same : ∀ chain ∈ [Chain.prerouting, .output], k.rules cs chain = rules)
    (bottom : ∀ chain ∈ [Chain.prerouting, .output], ∀ c ∈ cs, c.chain = chain → c.top = false)
    (sure : ∀ c ∈ cs, c.checked = true → ∀ r, k.ipt.read c.args .blank = some r → r.chance = false) :
    k.Translates m ↔ (∀ c ∈ cs, ∃ r, k.ipt.read c.args .blank = some r) ∧
      ∀ c : Connection, c.dst = m.publicIp → ∀ o ∈ outcomes (rules.map Rule.effect) c, m.Wants (k.targets m) c o := by
  have applied : ∀ t, k.host.applyMappingRules m t = k.host.runAll cs (k.host.purgeMappingRules m t) := by
    intro t
    rw [Host.applyMappingRules, enabled, all]
    rfl
  constructor
  · intro translates
    obtain ⟨ran, lands⟩ := translates fun _ => []
    rw [applied] at ran
    refine ⟨runAll_iff.mp ran, fun c here o among => lands .prerouting List.mem_cons_self ?_ c here o ?_⟩
    · rw [purged_nothing]
      exact fun spec member => (List.not_mem_nil member).elim
    · rw [applied, runAll_outcomes ran (bottom _ List.mem_cons_self) sure, purged_nothing, same _ List.mem_cons_self]
      exact among
  · rintro ⟨readable, wants⟩ t
    have ran : (k.host.runAll cs (k.host.purgeMappingRules m t)).1 = .ok () := runAll_iff.mpr readable
    rw [applied]
    refine ⟨ran, fun chain inward clear c here o among => wants c here o ?_⟩
    rw [runAll_outcomes ran (bottom chain inward) sure, outcomes_past, same chain inward] at among
    · exact among
    · intro e member
      obtain ⟨spec, listed, rfl⟩ := List.mem_map.mp member
      exact clear spec listed c here

theorem number_char {c : Char} (member : c ∈ (toString n).toList) : c.isDigit = true := by
  change c ∈ n.repr.toList at member
  rw [Nat.toList_repr] at member
  exact Nat.isDigit_of_mem_toDigits (by decide) (by decide) member

theorem number_shown : toString n ≠ "" := by
  intro empty
  have none_ : n.repr.toList = [] := congrArg String.toList empty
  rw [Nat.toList_repr] at none_
  exact Nat.toDigits_ne_nil none_

theorem spans_port {port : Nat} (read : k.ipt.port text.toList = some port) : k.spans text = some [(port, port)] := by
  obtain ⟨single, plain⟩ := k.ipt.port_plain _ _ read
  rw [Kernel.spans, if_neg single, Syntax.dport, Syntax.bounds_plain plain, read]
  rfl

theorem seen_some (typed : m.protocol ≠ "all") (shown : text ≠ "") : k.seen m (some text) = (k.spans text).map some := by
  rw [Kernel.seen, IpMapping.given, Option.filter_some, if_pos (decide_eq_true ⟨shown, typed⟩)]

theorem seen_number (typed : m.protocol ≠ "all") (small : n ≤ 65535) : k.seen m (some (toString n)) = some (some [(n, n)]) := by
  rw [seen_some typed number_shown, spans_port (k.ipt.port_decimal n small)]
  rfl

theorem seen_all (free : ports.getD "" = "" ∨ m.protocol = "all") : k.seen m ports = some none := by
  have none_ : m.given ports = none := by
    rw [IpMapping.given, Option.filter_eq_none_iff]
    rintro s rfl
    rcases free with empty | all
    · simp only [Option.getD_some] at empty
      simp [empty]
    · simp [all]
  rw [Kernel.seen, none_]

theorem dnat_alone (address : k.ipt.address ip = true) : k.dnat m ports chance ip =
    (k.seen m ports).map fun spans => ⟨some m.publicIp, m.proto, spans, chance, some ⟨ip, none⟩⟩ := by
  rw [Kernel.dnat, Syntax.toDestination_alone (k.ipt.address_plain ip address), if_pos address, Option.map_eq_bind]
  rfl

theorem dnat_port (address : k.ipt.address ip = true) : k.dnat m ports chance (ip ++ ":" ++ text) =
    (k.seen m ports).bind fun spans => (k.ipt.bounds '-' text.toList).bind fun D =>
      if m.proto.isNone = true then none else some ⟨some m.publicIp, m.proto, spans, chance, some ⟨ip, some D⟩⟩ := by
  rw [Kernel.dnat, Syntax.toDestination_port (k.ipt.address_plain ip address), if_pos address]
  congr 1
  funext spans
  rw [Option.bind_map]
  rfl

theorem filterMap_shared {backends : List String} {spans : Option (List (Nat × Nat))} {D : Option (Nat × Nat)} {f : String × Nat → Option Rule}
    (each : ∀ s ∈ backends.zipIdx, f s = some ⟨some m.publicIp, m.proto, spans, decide (1 < backends.length - s.2), some ⟨s.1, D⟩⟩) :
    backends.zipIdx.filterMap f = m.shared spans D backends := by
  rw [List.filterMap_congr each, IpMapping.shared]
  exact congrFun List.filterMap_eq_map _

theorem vip_bottom {chain : Chain} {backends : List String} {policy g : String} (inward : chain ∈ [Chain.prerouting, .output]) :
    ∀ c ∈ k.host.vipCommands m backends policy g, c.chain = chain → c.top = false := by
  intro c member here
  have other : c.chain ≠ .forward := by
    rw [here]
    rintro rfl
    exact absurd inward (by decide)
  simp only [Host.vipCommands, List.mem_append, List.mem_map, List.mem_flatMap, List.mem_cons, List.not_mem_nil, or_false] at member
  rcases member with (⟨_, -, made⟩ | ⟨_, -, made⟩) | ⟨_, -, made | made⟩
  · rw [← made]
  · rw [← made]
  · rw [made]
  · rw [made] at other
    exact absurd rfl other

theorem comma_iff : m.destPorts.any (fun dp => ',' ∈ dp.toList) = true ↔ ',' ∈ (m.destPorts.getD "").toList := by
  cases m.destPorts with
  | none => simp
  | some d => simp

theorem standardCommands_one {g : String} (one : ¬(m.hasPortTranslation = true ∧ ',' ∈ (m.destPorts.getD "").toList)) :
    m.standardCommands g = .ok (m.quartets g [(m.ports, m.destPorts.or m.ports,
      if m.hasPortTranslation = true then m.wolfnetIp ++ ":" ++ m.destPorts.getD "" else m.wolfnetIp)]) := by
  rw [← comma_iff, ← Bool.and_eq_true] at one
  rw [IpMapping.standardCommands, if_neg one, IpMapping.quartets, List.flatMap_singleton]
  rfl

theorem number_args (typed : m.protocol ≠ "all") : portArgs (some (toString n)) m.protocol = ["--dport", toString n] := by
  have single : ',' ∉ (toString n).toList := fun comma => absurd (number_char comma) (by decide)
  rw [portArgs, if_pos ⟨number_shown, typed⟩, buildPortArgs, if_neg single]

theorem standardCommands_pairs {g : String} {sources dests : List Nat} (typed : m.protocol ≠ "all")
    (several : m.hasPortTranslation = true ∧ ',' ∈ (m.destPorts.getD "").toList) (read : parsePortList (m.ports.getD "") = .ok sources)
    (aimed : parsePortList (m.destPorts.getD "") = .ok dests) : m.standardCommands g = .ok (m.quartets g ((sources.zip dests).map fun pair =>
      (some (toString pair.1), some (toString pair.2), m.wolfnetIp ++ ":" ++ toString pair.2))) := by
  rw [← comma_iff, ← Bool.and_eq_true] at several
  rw [IpMapping.standardCommands, if_pos several, read, aimed, IpMapping.quartets, List.flatMap_map]
  simp only [number_args typed]
  rfl

theorem proto_some (typed : m.protocol ≠ "all") : m.proto.isNone = false := by
  rw [IpMapping.proto, if_neg typed]
  rfl

theorem translation_aimed (translated : m.hasPortTranslation = true) : ∃ d, m.destPorts = some d ∧ d ≠ "" := by
  rw [IpMapping.hasPortTranslation] at translated
  split at translated
  · rename_i d aimed
    exact ⟨d, aimed, of_decide_eq_true (Bool.and_eq_true _ _ ▸ translated).1⟩
  · cases translated

theorem shared_one {spans : Option (List (Nat × Nat))} {D : Option (Nat × Nat)} :
    m.shared spans D [m.wolfnetIp] = [⟨some m.publicIp, m.proto, spans, false, some ⟨m.wolfnetIp, D⟩⟩] := rfl

variable (accepted : Accepted k m)
include accepted

theorem ports_shown (ported : m.hasPorts = true) : ∃ text, m.ports = some text ∧ text ≠ "" ∧ m.protocol ≠ "all" := by
  have shown := ported
  rw [IpMapping.hasPorts] at shown
  cases given : m.ports with
  | none =>
    rw [given] at shown
    cases shown
  | some text =>
    rw [given] at shown
    refine ⟨text, rfl, ?_, accepted.typed ported⟩
    rintro rfl
    exact absurd shown (by decide)

theorem aimed_length : m.sourcePorts.length = m.targetPorts.length := by
  rw [IpMapping.targetPorts]
  cases aimed : m.destPorts with
  | none => rfl
  | some d =>
    obtain ⟨ports, read, same⟩ := accepted.targets d aimed
    rw [Option.some_or, ← same, portsOf, Option.map_some, read]
    rfl

theorem aimed_undashed (ported : m.hasPorts = true) : '-' ∉ ((m.destPorts.or m.ports).getD "").toList := by
  cases aimed : m.destPorts with
  | none =>
    obtain ⟨ports, read⟩ := accepted.sources ported
    exact (parsePortList_ok read).1
  | some d =>
    obtain ⟨ports, read, -⟩ := accepted.targets d aimed
    exact (parsePortList_ok read).1

theorem ports_small (ported : m.hasPorts = true) : (∀ p ∈ m.sourcePorts, p ≤ 65535) ∧ ∀ p ∈ m.targetPorts, p ≤ 65535 := by
  obtain ⟨text, given, -, -⟩ := ports_shown accepted ported
  obtain ⟨ports, read⟩ := accepted.sources ported
  rw [given, Option.getD_some] at read
  have source : ∀ p ∈ m.sourcePorts, p ≤ 65535 := by
    rw [IpMapping.sourcePorts, given, portsOf, Option.map_some, read]
    exact (parsePortList_ok read).2
  refine ⟨source, ?_⟩
  rw [IpMapping.targetPorts]
  cases aimed : m.destPorts with
  | none => exact source
  | some d =>
    obtain ⟨ports, read, -⟩ := accepted.targets d aimed
    rw [Option.some_or, portsOf, Option.map_some, read]
    exact (parsePortList_ok read).2

omit accepted in
theorem mem_zip_right {left right : List Nat} (same : left.length = right.length) {q : Nat} (member : q ∈ right) :
    ∃ p, (p, q) ∈ left.zip right := by
  obtain ⟨i, inside, rfl⟩ := List.mem_iff_getElem.mp member
  exact ⟨left.get ⟨i, by omega⟩, List.mem_iff_getElem.mpr ⟨i, by rw [List.length_zip]; omega, by rw [List.getElem_zip]; rfl⟩⟩

theorem sends_iff {port : Nat} (read : k.ipt.port text.toList = some port) :
    (∀ pair ∈ m.sourcePorts.zip m.targetPorts, (some (port, port) = none ∧ pair.2 = pair.1) ∨ some (port, port) = some (pair.2, pair.2)) ↔
      k.Sends text m.targetPorts := by
  constructor
  · intro each
    refine ⟨port, read, fun q member => ?_⟩
    obtain ⟨p, paired⟩ := mem_zip_right (aimed_length accepted) member
    rcases each (p, q) paired with ⟨wrong, -⟩ | same
    · cases wrong
    · simpa using (Option.some.inj same).symm
  · rintro ⟨port', read', single⟩ pair paired
    cases read.symm.trans read'
    rw [single pair.2 (List.of_mem_zip paired).2]
    exact .inr rfl

omit accepted in
theorem zip_self {list : List Nat} {pair : Nat × Nat} (paired : pair ∈ list.zip list) : pair.2 = pair.1 := by
  obtain ⟨i, inside, rfl⟩ := List.mem_iff_getElem.mp paired
  rw [List.getElem_zip]

omit accepted in
theorem matching_iff {P Q : Prop} {ports : List Nat} (none_ : k.spans text = none → ¬P)
    (some_ : ∀ list, k.spans text = some list → (P ↔ (∀ p, (∃ s ∈ list, s.1 ≤ p ∧ p ≤ s.2) ↔ p ∈ ports) ∧ Q)) :
    P ↔ k.Matches text ports ∧ Q := by
  cases matched : k.spans text with
  | none =>
    refine ⟨fun holds => absurd holds (none_ matched), ?_⟩
    rintro ⟨⟨list, wrong, -⟩, -⟩
    cases matched.symm.trans wrong
  | some list =>
    rw [some_ list matched]
    refine and_congr_left fun _ => ⟨fun exact_ => ⟨list, matched, exact_⟩, ?_⟩
    rintro ⟨list', matched', exact_⟩
    cases matched.symm.trans matched'
    exact exact_

theorem vip_translates {g policy : String} {backends : List String} (gateway : k.host.gateway = some g)
    (backed : k.host.backends m = some (backends, policy)) : k.Translates m ↔ (∀ b ∈ backends, k.ipt.address b = true) ∧
      if m.hasPorts = true then k.Matches (m.ports.getD "") m.sourcePorts ∧ k.Sends ((m.destPorts.or m.ports).getD "") m.targetPorts
      else m.ports.getD "" = "" := by
  have some_ : backends ≠ [] := by
    have kept := (Option.filter_eq_some_iff.mp backed).2
    simpa using kept
  have aims : k.targets m = backends := by rw [Kernel.targets, backed]
  have all : k.host.commands m = .ok (k.host.vipCommands m backends policy g) := by rw [Host.commands, gateway, backed]
  have shape : ∀ b, m.vipTarget b = if (m.destPorts.or m.ports).getD "" ≠ "" then b ++ ":" ++ (m.destPorts.or m.ports).getD "" else b :=
    fun _ => rfl
  obtain ⟨b, first⟩ := List.exists_mem_of_ne_nil _ (fun none_ => some_ (List.zipIdx_eq_nil_iff.mp none_) : backends.zipIdx ≠ [])
  rw [translates_iff accepted.enabled all (fun _ inward => vip_rules accepted inward) (fun _ inward => vip_bottom inward) ?_, vip_reads accepted (k.gateway g gateway), aims,
    and_assoc]
  · refine and_congr_right fun addresses => ?_
    have address : ∀ s ∈ backends.zipIdx, k.ipt.address s.1 = true := fun s member => addresses s.1 (List.fst_mem_of_mem_zipIdx member)
    by_cases ported : m.hasPorts = true
    · rw [if_pos ported]
      obtain ⟨text, given, shown, typed⟩ := ports_shown accepted ported
      have aimed : (m.destPorts.or m.ports).getD "" ≠ "" := by
        cases dest : m.destPorts with
        | none => rwa [Option.none_or, given]
        | some d =>
          rintro rfl
          exact accepted.shown _ dest (by decide)
      have rule : ∀ s ∈ backends.zipIdx, k.dnat m m.ports (decide (1 < backends.length - s.2)) (m.vipTarget s.1) =
          ((k.spans text).map some).bind fun spans => (k.ipt.port ((m.destPorts.or m.ports).getD "").toList).bind fun p =>
            some ⟨some m.publicIp, m.proto, spans, decide (1 < backends.length - s.2), some ⟨s.1, some (p, p)⟩⟩ := by
        intro s member
        rw [shape, if_pos aimed, dnat_port (address s member), given, seen_some typed shown, ← given,
          Syntax.bounds_plain (aimed_undashed accepted ported), proto_some typed]
        congr 1
        funext spans
        rw [Option.bind_map]
        rfl
      have source : m.ports.getD "" = text := by rw [given, Option.getD_some]
      rw [source]
      apply matching_iff
      · rintro unmatched ⟨reads, -⟩
        obtain ⟨r, read⟩ := reads b first
        rw [rule b first, unmatched] at read
        cases read
      · intro list matched
        rw [matched] at rule
        cases sent : k.ipt.port ((m.destPorts.or m.ports).getD "").toList with
        | none =>
          rw [sent] at rule
          constructor
          · rintro ⟨reads, -⟩
            obtain ⟨r, read⟩ := reads b first
            rw [rule b first] at read
            cases read
          · rintro ⟨-, port, wrong, -⟩
            cases sent.symm.trans wrong
        | some port =>
          rw [sent] at rule
          have rules := @filterMap_shared m backends (some list) (some (port, port)) _ rule
          rw [rules, shared_ports some_ (fun _ member => member) ported (aimed_length accepted), sends_iff accepted sent]
          exact and_iff_right fun s member => ⟨_, rule s member⟩
    · rw [if_neg ported]
      have unported : m.hasPorts = false := Bool.not_eq_true _ ▸ ported
      have same : (m.destPorts.or m.ports).getD "" = m.ports.getD "" := by rw [accepted.aimed unported, Option.none_or]
      by_cases empty : m.ports.getD "" = ""
      · have rule : ∀ s ∈ backends.zipIdx, k.dnat m m.ports (decide (1 < backends.length - s.2)) (m.vipTarget s.1) =
            some ⟨some m.publicIp, m.proto, none, decide (1 < backends.length - s.2), some ⟨s.1, none⟩⟩ := by
          intro s member
          rw [shape, same, if_neg (not_not.mpr empty), dnat_alone (address s member), seen_all (.inl empty)]
          rfl
        rw [filterMap_shared rule, shared_all some_ (fun _ member => member) unported]
        exact ⟨fun _ => empty, fun _ => ⟨fun s member => ⟨_, rule s member⟩, fun _ list none_ => (nomatch none_), rfl⟩⟩
      · refine ⟨fun ⟨reads, wants⟩ => ?_, fun empty' => absurd empty' empty⟩
        have ported_ : ∀ s ∈ backends.zipIdx, k.dnat m m.ports (decide (1 < backends.length - s.2)) (m.vipTarget s.1) =
            (k.seen m m.ports).bind fun spans => (k.ipt.bounds '-' (m.ports.getD "").toList).bind fun D =>
              if m.proto.isNone = true then none
              else some ⟨some m.publicIp, m.proto, spans, decide (1 < backends.length - s.2), some ⟨s.1, some D⟩⟩ := by
          intro s member
          rw [shape, same, if_pos empty, dnat_port (address s member)]
        obtain ⟨r, read⟩ := reads b first
        rw [ported_ b first] at read
        obtain ⟨spans, seen, read⟩ := Option.bind_eq_some_iff.mp read
        obtain ⟨D, bounded, read⟩ := Option.bind_eq_some_iff.mp read
        have proto : m.proto.isNone = false := by
          cases none_ : m.proto.isNone
          · rfl
          · rw [none_] at read
            cases read
        have rule : ∀ s ∈ backends.zipIdx, k.dnat m m.ports (decide (1 < backends.length - s.2)) (m.vipTarget s.1) =
            some ⟨some m.publicIp, m.proto, spans, decide (1 < backends.length - s.2), some ⟨s.1, some D⟩⟩ := by
          intro s member
          rw [ported_ s member, seen, bounded, proto]
          rfl
        rw [filterMap_shared rule, shared_all some_ (fun _ member => member) unported] at wants
        cases wants.2
  · intro c member checked
    rw [vipCommands_again c member] at checked
    cases checked

section
variable {g : String} (gateway : k.host.gateway = some g) (plain : k.host.backends m = none)
include gateway plain

theorem standard_iff {specs : List Spec} (standard : m.standardCommands g = .ok (m.quartets g specs)) : k.Translates m ↔
    (∀ s ∈ specs, (∃ r, k.dnat m s.1 false s.2.2 = some r) ∧ ∃ spans, k.seen m s.2.1 = some spans) ∧
      ∀ c : Connection, c.dst = m.publicIp → ∀ o ∈ outcomes ((specs.filterMap fun s => k.dnat m s.1 false s.2.2).map Rule.effect) c,
        m.Wants [m.wolfnetIp] c o := by
  have all : k.host.commands m = .ok (m.quartets g specs) := by rw [Host.commands, gateway, plain, ← standard]
  have own := k.gateway g gateway
  have aims : k.targets m = [m.wolfnetIp] := by rw [Kernel.targets, plain]
  rw [translates_iff accepted.enabled all (fun _ inward => quartets_rules accepted inward) (fun _ inward => quartets_bottom inward)
    (quartets_sure accepted own), quartets_reads accepted own, aims]

theorem standard_several (ported : m.hasPorts = true) (several : m.hasPortTranslation = true ∧ ',' ∈ (m.destPorts.getD "").toList) :
    k.Translates m ↔
      ∀ one ∈ m.sourcePorts.zip m.targetPorts, ∀ other ∈ m.sourcePorts.zip m.targetPorts, one.1 = other.1 → one.2 = other.2 := by
  obtain ⟨text, given, -, typed⟩ := ports_shown accepted ported
  obtain ⟨smallSources, smallTargets⟩ := ports_small accepted ported
  obtain ⟨d, aimed, -⟩ := translation_aimed several.1
  obtain ⟨sources, read⟩ := accepted.sources ported
  obtain ⟨dests, readDests, -⟩ := accepted.targets d aimed
  have ofSources : m.sourcePorts = sources := by
    rw [given, Option.getD_some] at read
    rw [IpMapping.sourcePorts, given, portsOf, Option.map_some, read]
    rfl
  have ofTargets : m.targetPorts = dests := by
    rw [IpMapping.targetPorts, aimed, Option.some_or, portsOf, Option.map_some, readDests]
    rfl
  have standard := @standardCommands_pairs m g sources dests typed several read (by rw [aimed]; exact readDests)
  rw [← ofSources, ← ofTargets] at standard
  have rule : ∀ pair ∈ m.sourcePorts.zip m.targetPorts,
      k.dnat m (some (toString pair.1)) false (m.wolfnetIp ++ ":" ++ toString pair.2) = some (m.pairRule pair) := by
    intro pair paired
    have undashed : '-' ∉ (toString pair.2).toList := fun dash => absurd (number_char dash) (by decide)
    rw [dnat_port accepted.target, seen_number typed (smallSources _ (List.of_mem_zip paired).1), Syntax.bounds_plain undashed,
      k.ipt.port_decimal _ (smallTargets _ (List.of_mem_zip paired).2), proto_some typed]
    rfl
  have rules : (m.sourcePorts.zip m.targetPorts).filterMap (fun pair =>
      k.dnat m (some (toString pair.1)) false (m.wolfnetIp ++ ":" ++ toString pair.2)) =
        (m.sourcePorts.zip m.targetPorts).map m.pairRule := by
    rw [List.filterMap_congr rule]
    exact congrFun List.filterMap_eq_map _
  rw [standard_iff accepted gateway plain standard, List.filterMap_map]
  dsimp only [Function.comp_def]
  rw [rules, paired_ports ported]
  refine and_iff_right fun s member => ?_
  obtain ⟨pair, paired, rfl⟩ := List.mem_map.mp member
  exact ⟨⟨_, rule pair paired⟩, _, seen_number typed (smallTargets _ (List.of_mem_zip paired).2)⟩

theorem standard_sent (ported : m.hasPorts = true) (translated : m.hasPortTranslation = true)
    (single : ',' ∉ (m.destPorts.getD "").toList) :
    k.Translates m ↔ k.Matches (m.ports.getD "") m.sourcePorts ∧ k.Sends (m.destPorts.getD "") m.targetPorts := by
  obtain ⟨text, given, shown, typed⟩ := ports_shown accepted ported
  obtain ⟨d, aimed, aimedShown⟩ := translation_aimed translated
  have undashed := aimed_undashed accepted ported
  rw [aimed, Option.some_or, Option.getD_some] at undashed
  have standard := @standardCommands_one m g fun several => single several.2
  rw [standard_iff accepted gateway plain standard, List.forall_mem_singleton, List.filterMap_cons, List.filterMap_nil]
  dsimp only
  rw [if_pos translated, dnat_port accepted.target, aimed, Option.some_or, Option.getD_some, given, Option.getD_some,
    seen_some typed shown, seen_some typed aimedShown, Syntax.bounds_plain undashed, proto_some typed]
  apply matching_iff
  · rintro unmatched ⟨⟨⟨_, wrong⟩, -⟩, -⟩
    rw [unmatched] at wrong
    cases wrong
  · intro list matched
    rw [matched]
    cases sent : k.ipt.port d.toList with
    | none =>
      constructor
      · rintro ⟨⟨⟨_, wrong⟩, -⟩, -⟩
        cases wrong
      · rintro ⟨-, port, wrong, -⟩
        cases sent.symm.trans wrong
    | some port =>
      have ports := @shared_ports m (some (port, port)) [m.wolfnetIp] [m.wolfnetIp] (List.cons_ne_nil _ _) (fun _ member => member) list ported
        (aimed_length accepted)
      rw [shared_one, sends_iff accepted sent] at ports
      rw [spans_port sent]
      exact ⟨fun holds => ports.mp holds.2, fun holds => ⟨⟨⟨_, rfl⟩, _, rfl⟩, ports.mpr holds⟩⟩

theorem standard_kept (ported : m.hasPorts = true) (untranslated : ¬m.hasPortTranslation = true) :
    k.Translates m ↔ k.Matches (m.ports.getD "") m.sourcePorts := by
  obtain ⟨text, given, shown, typed⟩ := ports_shown accepted ported
  have onward : m.destPorts.or m.ports = some text := by
    cases aimed : m.destPorts with
    | none => rw [Option.none_or, given]
    | some d =>
      rw [Option.some_or]
      by_contra other
      refine untranslated ?_
      rw [IpMapping.hasPortTranslation, aimed, given]
      have aimedShown : d ≠ "" := by
        rintro rfl
        exact accepted.shown _ aimed (by decide)
      simp only [ne_eq, aimedShown, not_false_iff, decide_true, Bool.true_and, decide_eq_true_eq]
      exact fun same => other same.symm
  have stays : m.targetPorts = m.sourcePorts := by rw [IpMapping.targetPorts, IpMapping.sourcePorts, onward, given]
  have standard := @standardCommands_one m g fun several => untranslated several.1
  rw [standard_iff accepted gateway plain standard, List.forall_mem_singleton, List.filterMap_cons, List.filterMap_nil]
  dsimp only
  rw [if_neg untranslated, dnat_alone accepted.target, onward, given, Option.getD_some, seen_some typed shown,
    ← and_true (k.Matches _ _)]
  apply matching_iff
  · rintro unmatched ⟨⟨⟨_, wrong⟩, -⟩, -⟩
    rw [unmatched] at wrong
    cases wrong
  · intro list matched
    have ports := @shared_ports m none [m.wolfnetIp] [m.wolfnetIp] (List.cons_ne_nil _ _) (fun _ member => member) list ported (aimed_length accepted)
    rw [shared_one, stays] at ports
    rw [matched]
    constructor
    · exact fun holds => ⟨(ports.mp holds.2).1, trivial⟩
    · exact fun holds => ⟨⟨⟨_, rfl⟩, _, rfl⟩, ports.mpr ⟨holds.1, fun pair paired => .inl ⟨rfl, zip_self paired⟩⟩⟩

theorem standard_unported (unported : m.hasPorts = false) : k.Translates m ↔ m.ports.getD "" = "" ∨ m.protocol = "all" := by
  have aimed := accepted.aimed unported
  have still : m.hasPortTranslation = false := by rw [IpMapping.hasPortTranslation, aimed]
  have standard := @standardCommands_one m g fun several => Bool.false_ne_true (still.symm.trans several.1)
  rw [still, if_neg Bool.false_ne_true, aimed, Option.none_or] at standard
  rw [standard_iff accepted gateway plain standard, List.forall_mem_singleton, List.filterMap_cons, List.filterMap_nil,
    dnat_alone accepted.target]
  have matched : ∀ spans, _ ↔ _ := fun spans =>
    @shared_all m spans none [m.wolfnetIp] [m.wolfnetIp] (List.cons_ne_nil _ _) (fun _ member => member) unported
  by_cases free : m.ports.getD "" = "" ∨ m.protocol = "all"
  · have all := matched none
    rw [shared_one] at all
    rw [seen_all free]
    exact ⟨fun _ => free, fun _ => ⟨⟨⟨_, rfl⟩, none, rfl⟩, all.mpr ⟨fun _ list none_ => (nomatch none_), rfl⟩⟩⟩
  · refine ⟨fun ⟨⟨_, spans, seen⟩, wants⟩ => ?_, fun free' => absurd free' free⟩
    obtain ⟨shown, typed⟩ := not_or.mp free
    obtain ⟨text, given⟩ : ∃ text, m.ports = some text := by
      cases given : m.ports with
      | none => exact absurd (by rw [given]; rfl) shown
      | some text => exact ⟨text, rfl⟩
    rw [given, Option.getD_some] at shown
    have white : trim text = "" := by
      rw [IpMapping.hasPorts, given] at unported
      simpa using unported
    have dark : ∀ c, isWhitespace c = false → c ∉ text.toList := by
      intro c plain member
      have kept := mem_trim member plain
      rw [white] at kept
      exact List.not_mem_nil kept
    have one_ : k.spans text = (k.ipt.port text.toList).map fun p => [(p, p)] := by
      rw [Kernel.spans, if_neg (dark ',' (by decide)), Syntax.dport, Syntax.bounds_plain (dark ':' (by decide)), Option.map_map]
      rfl
    dsimp only at seen
    rw [given, seen_some typed shown, one_] at seen
    cases port : k.ipt.port text.toList with
    | none =>
      rw [port] at seen
      cases seen
    | some p =>
      have single := matched (some [(p, p)])
      rw [shared_one] at single
      rw [given, seen_some typed shown, one_, port] at wants
      have met := (single.mp wants).1 (p + 1) _ rfl
      simp at met

end

theorem standard_translates {g : String} (gateway : k.host.gateway = some g) (plain : k.host.backends m = none) : k.Translates m ↔
    if m.hasPorts = true then
      if m.hasPortTranslation = true ∧ ',' ∈ (m.destPorts.getD "").toList then
        ∀ one ∈ m.sourcePorts.zip m.targetPorts, ∀ other ∈ m.sourcePorts.zip m.targetPorts, one.1 = other.1 → one.2 = other.2
      else k.Matches (m.ports.getD "") m.sourcePorts ∧ (m.hasPortTranslation = true → k.Sends (m.destPorts.getD "") m.targetPorts)
    else m.ports.getD "" = "" ∨ m.protocol = "all" := by
  split
  · rename_i ported
    split
    · rename_i several
      exact standard_several accepted gateway plain ported several
    · rename_i one
      by_cases translated : m.hasPortTranslation = true
      · rw [standard_sent accepted gateway plain ported translated fun comma => one ⟨translated, comma⟩]
        exact and_congr_right fun _ => ⟨fun sends _ => sends, fun sends => sends translated⟩
      · rw [standard_kept accepted gateway plain ported translated]
        exact (and_iff_left fun translated' => absurd translated' translated).symm
  · rename_i unported
    exact standard_unported accepted gateway plain (Bool.not_eq_true _ ▸ unported)

end

section
variable {k : Kernel} {e : Edit} {listening : List Listening} {gateway : Option String}

theorem checkNew_parts (checked : e.checkNew gateway listening = .ok ()) : isIpv4 e.publicIp = true ∧ isIpv4 e.wolfnetIp = true ∧
    e.protocol ∈ ["all", "tcp", "udp"] ∧ e.checkPorts listening = .ok () ∧ e.checkDestPorts = .ok () := by
  rw [Edit.checkNew] at checked
  split at checked
  · cases checked
  · rename_i source
    split at checked
    · cases checked
    · rename_i target
      split at checked
      · cases checked
      · split at checked
        · cases checked
        · rename_i named
          cases ports : e.checkPorts listening with
          | error message =>
            rw [ports] at checked
            cases checked
          | ok done =>
            rw [ports] at checked
            exact ⟨by simpa using source, by simpa using target, not_not.mp named, rfl, checked⟩

theorem accepted_new (id : String) (checked : e.checkNew k.host.gateway listening = .ok ()) : Accepted k (e.new id) := by
  obtain ⟨source, target, named, ports, dests⟩ := checkNew_parts checked
  have blank : ∀ {text : String}, e.ports = some text → ((e.new id).hasPorts = true ↔ trim text ≠ "") := by
    intro text given
    rw [IpMapping.hasPorts, Edit.new, given]
    simp
  have checkedPorts : ∀ text, e.ports = some text → trim text ≠ "" → e.protocol ≠ "all" ∧ ∃ list, parsePortList text = .ok list := by
    intro text given shown
    rw [Edit.checkPorts, given] at ports
    dsimp only at ports
    rw [if_neg shown] at ports
    split at ports
    · cases ports
    · rename_i typed
      rw [parsePortList_trim] at ports
      cases read : parsePortList text with
      | error message =>
        rw [read] at ports
        cases ports
      | ok list => exact ⟨typed, list, rfl⟩
  have checkedDests : ∀ d, e.destPortsClean = some d → (e.new id).hasPorts = true ∧
      ∃ list, parsePortList d = .ok list ∧ list.length = (e.new id).sourcePorts.length := by
    intro d aimed
    rw [Edit.checkDestPorts, aimed] at dests
    dsimp only at dests
    split at dests
    · cases dests
    · rename_i some_
      split at dests
      · cases dests
      · cases read : parsePortList d with
        | error message =>
          rw [read] at dests
          cases dests
        | ok list =>
          cases readSource : parsePortList (e.ports.getD "") with
          | error message =>
            rw [read, readSource] at dests
            cases dests
          | ok sources =>
            rw [read, readSource] at dests
            change (if list.length ≠ sources.length then _ else _) = _ at dests
            split at dests
            · cases dests
            · rename_i same
              obtain ⟨text, given⟩ : ∃ text, e.ports = some text := by
                cases given : e.ports with
                | none =>
                  rw [given] at some_
                  exact absurd rfl some_
                | some text => exact ⟨text, rfl⟩
              rw [given, Option.getD_some] at readSource
              refine ⟨(blank given).mpr fun none_ => some_ ?_, list, rfl, ?_⟩
              · rw [given, Option.all_some, none_]
                rfl
              · rw [IpMapping.sourcePorts, Edit.new, given, portsOf, Option.map_some, readSource]
                exact not_not.mp same
  have text : (e.new id).hasPorts = true → ∃ text, e.ports = some text ∧ trim text ≠ "" := by
    intro ported
    cases given : e.ports with
    | none =>
      rw [IpMapping.hasPorts, Edit.new, given] at ported
      cases ported
    | some text => exact ⟨text, rfl, (blank given).mp ported⟩
  constructor
  · rfl
  · exact k.addresses _ source
  · exact k.addresses _ target
  · exact named
  · intro ported
    obtain ⟨text, given, shown⟩ := text ported
    exact (checkedPorts text given shown).1
  · intro unported
    cases aimed : e.destPortsClean with
    | none => exact aimed
    | some d =>
      rw [(checkedDests d aimed).1] at unported
      cases unported
  · intro d aimed
    exact of_decide_eq_true (Option.filter_eq_some_iff.mp aimed).2
  · intro ported
    obtain ⟨text, given, shown⟩ := text ported
    obtain ⟨-, list, read⟩ := checkedPorts text given shown
    rw [Edit.new, given]
    exact ⟨list, read⟩
  · exact fun d aimed => (checkedDests d aimed).2

/-- A mapping that `add_ip_mapping` accepts is translated port by port just when its texts are of the shapes that
the rules are made for. -/
theorem ports_are_paired (id : String) (checked : e.checkNew k.host.gateway listening = .ok ()) :
    k.Translates (e.new id) ↔ k.Paired (e.new id) := by
  have accepted := accepted_new id checked
  rw [Kernel.Paired]
  cases gateway : k.host.gateway with
  | none =>
    refine ⟨fun translates => ?_, fun ⟨wrong, _⟩ => (nomatch wrong)⟩
    have ran := (translates fun _ => []).1
    rw [Host.applyMappingRules, accepted.enabled, Host.commands, gateway] at ran
    cases ran
  | some g =>
    cases backed : k.host.backends (e.new id) with
    | none => exact (standard_translates accepted gateway backed).trans (and_iff_right rfl).symm
    | some vip =>
      obtain ⟨backends, policy⟩ := vip
      exact (vip_translates accepted gateway backed).trans (and_iff_right rfl).symm

end

theorem readNumber_digits {radix most bound value : Nat} {zero : Bool} {chars rest : List Char}
    (read : readNumber radix most bound zero chars = some (value, rest)) :
    ∃ digits, chars = digits ++ rest ∧ ∀ c ∈ digits, (digitValue radix c).isSome = true := by
  rw [readNumber] at read
  split at read
  · cases read
  · split at read
    · cases read
    · obtain rfl : chars.drop (chars.takeWhile fun c => (digitValue radix c).isSome).length = rest :=
        congrArg Prod.snd (Option.some.inj read)
      refine ⟨chars.takeWhile fun c => (digitValue radix c).isSome, ?_, fun c member =>
        List.mem_takeWhile_imp (p := fun c => (digitValue radix c).isSome) member⟩
      exact (List.prefix_iff_eq_append.mp (List.takeWhile_prefix _)).symm

theorem readChar_cons {c : Char} {chars rest : List Char} (read : readChar c chars = some rest) : chars = c :: rest := by
  cases chars with
  | nil => cases read
  | cons first more =>
    rw [readChar] at read
    split at read
    · rename_i same
      rw [same, Option.some.inj read]
    · cases read

theorem isIpv4_plain {text : String} (address : isIpv4 text = true) : ':' ∉ text.toList := by
  have digit : ∀ {digits : List Char}, (∀ c ∈ digits, (digitValue 10 c).isSome = true) → ':' ∉ digits :=
    fun all member => absurd (all ':' member) (by decide)
  have plain : ∀ bits, readIpv4 text.toList = some (bits, []) → ':' ∉ text.toList := by
    intro bits read
    simp only [readIpv4, Option.bind_eq_bind, Option.bind_eq_some_iff, Option.pure_def, Option.some.injEq, Prod.mk.injEq, Prod.exists] at read
    obtain ⟨a, _, first, _, dot1, b, _, second, _, dot2, c, _, third, _, dot3, d, _, fourth, -, rfl⟩ := read
    obtain ⟨digits1, shape1, all1⟩ := readNumber_digits first
    obtain ⟨digits2, shape2, all2⟩ := readNumber_digits second
    obtain ⟨digits3, shape3, all3⟩ := readNumber_digits third
    obtain ⟨digits4, shape4, all4⟩ := readNumber_digits fourth
    rw [shape1, readChar_cons dot1, shape2, readChar_cons dot2, shape3, readChar_cons dot3, shape4]
    simp [digit all1, digit all2, digit all3, digit all4]
  have four : ∃ bits, readIpv4 text.toList = some (bits, []) := by
    rw [isIpv4, parseIp] at address
    split at address
    · rename_i bits parsed
      split at parsed
      · rename_i bits' read
        exact ⟨bits', read⟩
      · split at parsed <;> cases parsed
    · cases address
  obtain ⟨bits, read⟩ := four
  exact plain bits read

def decimalPort (chars : List Char) : Option Nat :=
  if chars ≠ [] ∧ chars.all Char.isDigit = true then some (Nat.ofDigitChars 10 chars 0) |>.filter (· ≤ 65535) else none

theorem decimalPort_digits {chars : List Char} {port : Nat} (read : decimalPort chars = some port) : ∀ c ∈ chars, c.isDigit = true := by
  rw [decimalPort] at read
  split at read
  · rename_i digits
    exact List.all_eq_true.mp digits.2
  · cases read

def sampleSyntax : Syntax where
  address := isIpv4
  port := decimalPort
  most := 15
  address_plain _ address := isIpv4_plain address
  port_plain _ _ read := by
    refine ⟨fun comma => absurd (decimalPort_digits read _ comma) (by decide), fun colon => absurd (decimalPort_digits read _ colon) (by decide)⟩
  port_decimal n small := by
    have shown : (toString n).toList = Nat.toDigits 10 n := Nat.toList_repr
    have all : (Nat.toDigits 10 n).all Char.isDigit = true :=
      List.all_eq_true.mpr fun c member => Nat.isDigit_of_mem_toDigits (by decide) (by decide) member
    rw [shown, decimalPort, if_pos ⟨Nat.toDigits_ne_nil, all⟩, Nat.ofDigitChars_ten_toDigits, Option.filter_some,
      if_pos (decide_eq_true small)]

def listed (args : List String) : String := String.ofList (args.flatMap fun w => w.toList.flatMap (fun c => ['.', c]) ++ [' '])

def wordsOf (word : List Char) : List Char → List String
  | ' ' :: rest => String.ofList word :: wordsOf [] rest
  | _ :: c :: rest => wordsOf (word ++ [c]) rest
  | _ => []

theorem wordsOf_listed (args : List String) : wordsOf [] (listed args).toList = args := by
  have one : ∀ (chars word rest : List Char), wordsOf word (chars.flatMap (fun c => ['.', c]) ++ ' ' :: rest) =
      String.ofList (word ++ chars) :: wordsOf [] rest := by
    intro chars
    induction chars with
    | nil =>
      intro word rest
      rw [List.append_nil]
      rfl
    | cons c chars ih =>
      intro word rest
      change wordsOf (word ++ [c]) (chars.flatMap (fun c => ['.', c]) ++ ' ' :: rest) = _
      rw [ih, List.append_assoc, List.singleton_append]
  rw [listed, String.toList_ofList]
  induction args with
  | nil => rfl
  | cons w rest ih =>
    rw [List.flatMap_cons, List.append_assoc, List.singleton_append, one, ih, List.nil_append, String.ofList_toList]

def sampleHost : Host where
  denotes args := if (sampleSyntax.read args .blank).isSome then .ok (listed args) else .error "Bad argument"
  gateway := some "10.100.10.1"
  services := []
  probability _ := "0.5"

def sampleKernel : Kernel where
  host := sampleHost
  ipt := sampleSyntax
  effect spec := ((sampleSyntax.read (wordsOf [] spec.toList) .blank).map Rule.effect).getD fun _ => [none]
  faithful args := by
    rw [sampleHost]
    dsimp only
    cases read : sampleSyntax.read args .blank with
    | none => rfl
    | some r =>
      refine ⟨r, rfl, ?_⟩
      rw [wordsOf_listed, read]
      rfl
  addresses _ address := address
  gateway g own := by
    cases own
    decide +kernel

def rangeEdit : Edit := ⟨"203.0.113.5", "10.100.10.5", some "8000:8001", some "9000:9001", "tcp"⟩

def listEdit : Edit := ⟨"203.0.113.5", "10.100.10.5", some "80,443", some "8080,8443", "tcp"⟩

theorem ports_are_paired_sample : sampleKernel.Translates (listEdit.new "18c5a4") := by
  refine (@ports_are_paired sampleKernel listEdit [] "18c5a4" (by decide +kernel)).mpr ⟨rfl, ?_⟩
  have standard : sampleKernel.host.backends (listEdit.new "18c5a4") = none := rfl
  have ported : (listEdit.new "18c5a4").hasPorts = true := by decide +kernel
  have several : (listEdit.new "18c5a4").hasPortTranslation = true ∧ ',' ∈ ((listEdit.new "18c5a4").destPorts.getD "").toList := by
    decide +kernel
  rw [standard]
  dsimp only
  rw [if_pos ported, if_pos several]
  decide +kernel

/-- A range of destination ports is handed on as it is written, and iptables refuses it. -/
theorem range_refused : ¬∀ (e : Edit) (id : String), e.checkNew sampleKernel.host.gateway [] = .ok () → sampleKernel.Translates (e.new id) := by
  intro all
  have ran := (all rangeEdit "18c5a4" (by decide +kernel) fun _ => []).1
  exact absurd ran (by decide +kernel)

end Networking
