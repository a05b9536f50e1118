import WolfStack.Router.FirewallMeaning

/-! The lines that are written for a rule spell its options, so that they are read as the rule. -/

namespace Router
open Text Netfilter

variable {node : FirewallNode} {config : FirewallConfig}

theorem printable_unbroken {chars : List Char} (printable : Printable chars) : '\n' ∉ chars :=
  fun member => absurd (printable_char printable member).1 (by decide)

theorem address_spelled (side : Side) {chars : List Char} {n : Network} (read : readNetwork chars = some n) :
    Spelled [side.addressFlag.toList ++ chars] [.address side.stop n] := by
  have value : ∀ e, (Flag.address e).read chars = some (.address e n) := fun e => by rw [Flag.read, read, Option.map_some]
  cases side with
  | src =>
    have known : flags.lookup "-s".toList = some (.address .source) := by decide
    exact .one (.option known (value .source) (by decide) (network_bare read))
  | dst =>
    have known : flags.lookup "-d".toList = some (.address .destination) := by decide
    exact .one (.option known (value .destination) (by decide) (network_bare read))

theorem interface_spelled (side : Side) {name : String} (valid : ValidInterface name) :
    Spelled [side.interfaceFlag.toList ++ name.toList] [.interface side.stop name.toList] := by
  have value : ∀ e, (Flag.interface e).read name.toList = some (.interface e name.toList) := fun e => by
    rw [Flag.read, readInterface, if_pos ⟨valid.1.1, valid.2.1⟩, Option.map_some]
  cases side with
  | src =>
    have known : flags.lookup "-i".toList = some (.interface .source) := by decide
    exact .one (.option known (value .source) (by decide) valid.1)
  | dst =>
    have known : flags.lookup "-o".toList = some (.interface .destination) := by decide
    exact .one (.option known (value .destination) (by decide) valid.1)

theorem expandEndpoint_spelled {ep : Endpoint} (valid : ValidEndpoint node config ep) (side : Side) :
    (∃ texts, expandEndpoint node config ep side = .ok texts ∧ List.Forall₂ Spelled texts (ep.tests node config side)) ∨
      ∃ reason, expandEndpoint node config ep side = .error reason ∧ '\n' ∉ reason.toList ∧ ep.tests node config side = [] := by
  have host : ∀ name : String, Printable name.toList → (∀ v ∈ node.vms.find? fun v => v.name = name, ∀ ip ∈ v.wolfnetIp, (readAddress ip.toList).isSome = true) →
      (∃ texts, expandEndpoint node config (.vm name) side = .ok texts ∧ List.Forall₂ Spelled texts ((Endpoint.vm name).tests node config side)) ∨
        ∃ reason, expandEndpoint node config (.vm name) side = .error reason ∧ '\n' ∉ reason.toList ∧ (Endpoint.vm name).tests node config side = [] := by
    intro name printable known
    rw [expandEndpoint, Endpoint.tests]
    cases found : node.vms.find? fun v => v.name = name with
    | none =>
      refine .inr ⟨_, rfl, ?_, rfl⟩
      simp [printable_unbroken printable]
    | some v =>
      dsimp only
      rw [Option.bind_some]
      cases ip : v.wolfnetIp with
      | none =>
        refine .inr ⟨_, rfl, ?_, rfl⟩
        simp [printable_unbroken printable]
      | some ip' =>
        obtain ⟨a, read⟩ := Option.isSome_iff_exists.mp (known v found ip' ip)
        refine .inl ⟨_, rfl, ?_⟩
        rw [Option.bind_some, read]
        refine .cons ?_ .nil
        rw [List.append_assoc]
        exact address_spelled side (readNetwork_host read)
  cases ep with
  | any => exact .inl ⟨_, rfl, .cons .nil .nil⟩
  | zone inside =>
    refine .inl ⟨_, rfl, ?_⟩
    rw [Endpoint.tests, List.forall₂_map_right_iff, List.forall₂_map_left_iff, List.forall₂_same]
    exact fun m member => interface_spelled side (valid m member)
  | interface name => exact .inl ⟨_, rfl, .cons (interface_spelled side valid) .nil⟩
  | ip cidr =>
    obtain ⟨n, read⟩ := Option.isSome_iff_exists.mp valid
    refine .inl ⟨_, rfl, ?_⟩
    rw [Endpoint.tests, read]
    exact .cons (address_spelled side read) .nil
  | lan id =>
    rw [expandEndpoint, Endpoint.tests]
    cases found : config.lans.find? fun l => l.id = id with
    | none =>
      refine .inr ⟨_, rfl, ?_, rfl⟩
      simp [printable_unbroken valid.1]
    | some l =>
      obtain ⟨n, read⟩ := Option.isSome_iff_exists.mp (valid.2 l found)
      refine .inl ⟨_, rfl, ?_⟩
      rw [Option.bind_some, read]
      exact .cons (address_spelled side read) .nil
  | vm name => exact host name valid.1 valid.2
  | container name => exact host name valid.1 valid.2

/-! ### Rules -/

def protoName : Proto → String
  | .tcp => "tcp"
  | .udp => "udp"
  | .icmp => "icmp"

theorem protos_kinds (protocol : Protocol) : protocol.protos = protocol.kinds.map (Option.map protoName) := by
  cases protocol <;> rfl

theorem hasPorts_named (kind : Option Proto) : (kind.map protoName = some "tcp" ∨ kind.map protoName = some "udp") ↔ Proto.HasPorts kind := by
  cases kind with
  | none => decide
  | some proto => cases proto <;> decide

theorem proto_spelled (kind : Option Proto) :
    Spelled ((kind.map protoName).toList.map fun p => "-p ".toList ++ p.toList) (kind.toList.map .proto) := by
  have known : flags.lookup "-p".toList = some .proto := by decide
  cases kind with
  | none => exact .nil
  | some proto => cases proto <;> exact .one (.option known (by decide) (by decide) (by decide))

theorem port_spelled {spec : PortSpec} {range : Nat × Nat} (read : spec.range = some range) :
    Spelled [spec.side.portFlag.toList ++ spec.port.toList.map fun c => if c = '-' then ':' else c] [.port spec.side.stop range.1 range.2] := by
  obtain ⟨same, bare⟩ := readPorts_replaced (by decide) read
  have value : ∀ e, (Flag.port e).read (spec.port.toList.map fun c => if c = '-' then ':' else c) = some (.port e range.1 range.2) := fun e => by
    rw [Flag.read, same, Option.map_some]
  cases spec.side with
  | src =>
    have known : flags.lookup "--sport".toList = some (.port .source) := by decide
    exact .one (.option known (value .source) (by decide) bare)
  | dst =>
    have known : flags.lookup "--dport".toList = some (.port .destination) := by decide
    exact .one (.option known (value .destination) (by decide) bare)

theorem portParts_spelled {rule : FirewallRule} (kind : Option Proto)
    (ports : Proto.HasPorts kind → ∀ spec ∈ rule.ports, spec.range.isSome = true) :
    Spelled (portParts rule (kind.map protoName)) (rule.portTests kind) := by
  rw [portParts, FirewallRule.portTests]
  by_cases has : Proto.HasPorts kind
  · rw [if_pos ((hasPorts_named kind).mpr has), if_pos has]
    have valid := ports has
    clear ports
    generalize rule.ports = ports at valid
    induction ports with
    | nil => exact .nil
    | cons spec rest ih =>
      obtain ⟨range, read⟩ := Option.isSome_iff_exists.mp (valid spec List.mem_cons_self)
      rw [List.map_cons, List.flatMap_cons, read]
      exact (port_spelled read).append (ih fun spec member => valid spec (List.mem_cons_of_mem _ member))
  · rw [if_neg fun named => has ((hasPorts_named kind).mp named), if_neg has]
    exact .nil

theorem state_spelled (rule : FirewallRule) : Spelled (if rule.stateTrack then ["-m conntrack --ctstate NEW".toList] else []) rule.stateTests := by
  rw [FirewallRule.stateTests]
  split
  · have load : flags.lookup "-m".toList = some .load := by decide
    have states : flags.lookup "--ctstate".toList = some .ctstate := by decide
    have module_ : Spells ("-m".toList ++ ' ' :: "conntrack".toList) [.load .conntrack] := .option load (by decide) (by decide) (by decide)
    have new : Spells ("--ctstate".toList ++ ' ' :: "NEW".toList) [.ctstate [.new]] := .option states (by decide +kernel) (by decide) (by decide)
    have shape : "-m conntrack --ctstate NEW".toList = ("-m".toList ++ ' ' :: "conntrack".toList) ++ ' ' :: ("--ctstate".toList ++ ' ' :: "NEW".toList) := by
      decide
    exact shape ▸ .one (module_.beside new)
  · exact .nil

theorem matchParts_spelled {rule : FirewallRule} {kind : Option Proto} {source target : List (List Char)} {from_ to_ : Rule} (chain : String)
    (ports : Proto.HasPorts kind → ∀ spec ∈ rule.ports, spec.range.isSome = true) (sources : Spelled source from_) (targets : Spelled target to_) :
    ∃ parts, matchParts rule chain (kind.map protoName) source target = ("-A ".toList ++ chain.toList) :: parts ∧
      Spelled parts (rule.tests kind from_ to_) := by
  refine ⟨_, ?_, (proto_spelled kind).append (sources.append (targets.append ((portParts_spelled kind ports).append (state_spelled rule))))⟩
  simp only [matchParts, List.cons_append, List.append_assoc]

theorem jump_spells {name : List Char} {target : Target} (known : readTarget name = target) (bare : Verbatim name) :
    Spells ("-j".toList ++ ' ' :: name) [.jump target] := by
  have jump : flags.lookup "-j".toList = some .jump := by decide
  exact .option jump (congrArg (fun t => some (Opt.jump t)) known) (by decide) bare

def actionName : Action → String
  | .allow => "ACCEPT"
  | .deny => "DROP"
  | .reject => "REJECT"
  | .log => "RETURN"

theorem action_spells (action : Action) : Spells action.flag.toList [.jump action.target] := by
  have shape : action.flag.toList = "-j".toList ++ ' ' :: (actionName action).toList := by cases action <;> decide
  have known : readTarget (actionName action).toList = action.target := by cases action <;> decide
  rw [shape]
  exact jump_spells known (by cases action <;> decide)

theorem logPrefix_eq {rule : FirewallRule} {start : List Char} (cut : takeBytes (min (byteLen rule.id.toList) 8) rule.id.toList = some start) :
    rule.logPrefix = "wolfrouter-".toList ++ start ++ " ".toList :=
  congrArg (fun cut => "wolfrouter-".toList ++ cut.getD [] ++ " ".toList) cut

theorem byteLen_append (first second : List Char) : byteLen (first ++ second) = byteLen first + byteLen second := by
  rw [byteLen, List.map_append, List.sum_append, ← byteLen, ← byteLen]

theorem log_spelled {rule : FirewallRule} (printable : Printable rule.id.toList) {start : List Char}
    (cut : takeBytes (min (byteLen rule.id.toList) 8) rule.id.toList = some start) :
    Spelled ["-j NFLOG".toList, "--nflog-group 1".toList, "--nflog-prefix \"wolfrouter-".toList ++ start ++ " \"".toList]
      [.jump .nflog, .nflogGroup 1, .nflogPrefix rule.logPrefix] := by
  have group : flags.lookup "--nflog-group".toList = some .nflogGroup := by decide
  have text : flags.lookup "--nflog-prefix".toList = some .nflogPrefix := by decide
  obtain ⟨inside, length⟩ := takeBytes_front cut
  have short : byteLen rule.logPrefix < 64 := by
    have around : byteLen "wolfrouter-".toList = 11 ∧ byteLen " ".toList = 1 := by decide
    rw [logPrefix_eq cut, byteLen_append, byteLen_append, around.1, around.2, length]
    omega
  have fixed : Printable "wolfrouter-".toList ∧ Printable " ".toList := by decide
  have clean : Printable rule.logPrefix := by
    have id : start.all isPrintable = true :=
      List.all_eq_true.mpr fun c member => List.all_eq_true.mp printable c (inside.subset member)
    rw [Printable, logPrefix_eq cut, List.all_append, List.all_append, fixed.1, id, fixed.2]
    rfl
  have value : Flag.nflogPrefix.read rule.logPrefix = some (.nflogPrefix rule.logPrefix) := by
    rw [Flag.read, if_pos short]
  have quoted := Spells.quoted text value (by decide) (fun c member => (printable_char clean member).2) (printable_unbroken clean)
  have told : Spells ("--nflog-group".toList ++ ' ' :: "1".toList) [.nflogGroup 1] := .option group (by decide +kernel) (by decide) (by decide)
  have nflog : Spells ("-j".toList ++ ' ' :: "NFLOG".toList) [.jump .nflog] := jump_spells (by decide) (by decide)
  have shape : "--nflog-prefix".toList ++ ' ' :: ('"' :: rule.logPrefix ++ ['"']) = "--nflog-prefix \"wolfrouter-".toList ++ start ++ " \"".toList := by
    have opened : "--nflog-prefix \"wolfrouter-".toList = "--nflog-prefix".toList ++ ' ' :: '"' :: "wolfrouter-".toList := rfl
    have closed : " \"".toList = " ".toList ++ ['"'] := by decide
    rw [logPrefix_eq cut, opened, closed]
    simp only [List.append_assoc, List.cons_append]
  have jumpText : "-j NFLOG".toList = "-j".toList ++ ' ' :: "NFLOG".toList := by decide
  have groupText : "--nflog-group 1".toList = "--nflog-group".toList ++ ' ' :: "1".toList := by decide
  rw [jumpText, groupText, ← shape]
  exact .cons nflog (.cons told (.one quoted))

theorem chain_bare (direction : Direction) : Verbatim direction.chain.toList := by
  cases direction <;> decide

theorem emitRule_lines {rule : FirewallRule} (valid : ValidRule node config rule) {kind : Option Proto} (known : kind ∈ rule.protocol.kinds)
    {source target : List (List Char)} {from_ to_ : Rule} (sources : Spelled source from_) (targets : Spelled target to_)
    (fromHere : from_ ∈ rule.source.tests node config .src) (toHere : to_ ∈ rule.target.tests node config .dst) :
    ∃ lines, emitRule rule rule.direction.chain (kind.map protoName) source target = some lines ∧
      List.Forall₂ IsLine lines ((rule.lines (rule.tests kind from_ to_)).map (.append rule.direction.chain.toList)) := by
  obtain ⟨parts, shape, spelled⟩ := matchParts_spelled rule.direction.chain (fun has => valid.ports ((kind_ports _ kind known).mp has)) sources targets
  have action : IsLine (joinParts (matchParts rule rule.direction.chain (kind.map protoName) source target ++ [rule.action.flag.toList]))
      (.append rule.direction.chain.toList (rule.actionRule (rule.tests kind from_ to_))) := by
    rw [shape, List.cons_append]
    exact isLine_rule (chain_bare _) (spelled.append (.one (action_spells rule.action))) (List.append_ne_nil_of_right_ne_nil _ (List.cons_ne_nil _ _))
      (FirewallRule.tests_sound valid known fromHere toHere (.inr rfl))
  rw [emitRule, FirewallRule.lines, FirewallRule.logs]
  split
  next =>
    obtain ⟨start, cut⟩ := Option.isSome_iff_exists.mp ((takeBytes_isSome_iff _ _).mpr valid.cut)
    refine ⟨_, congrArg (Option.map _) cut, .cons ?_ (.cons action .nil)⟩
    rw [shape, List.cons_append]
    exact isLine_rule (chain_bare _) (spelled.append (log_spelled valid.printable cut)) (List.append_ne_nil_of_right_ne_nil _ (List.cons_ne_nil _ _))
      (FirewallRule.tests_sound valid known fromHere toHere (.inl rfl))
  next => exact ⟨_, rfl, .cons action .nil⟩

theorem skippedLine_comment {rule : FirewallRule} (printable : Printable rule.id.toList) {reason : String} (unbroken : '\n' ∉ reason.toList) :
    IsLine (skippedLine rule reason) .comment := by
  have shape : skippedLine rule reason = '#' :: (" wolfrouter rule ".toList ++ rule.id.toList ++ " skipped: ".toList ++ reason.toList) := by
    have opened : "# wolfrouter rule ".toList = '#' :: " wolfrouter rule ".toList := by decide
    rw [skippedLine, String.toList_append, String.toList_append, String.toList_append, opened]
    rfl
  rw [shape]
  refine isLine_comment ?_
  have before : '\n' ∉ " wolfrouter rule ".toList := by decide
  have between : '\n' ∉ " skipped: ".toList := by decide
  simp only [List.mem_append, not_or]
  exact ⟨⟨⟨before, printable_unbroken printable⟩, between⟩, unbroken⟩

def Compiles (text : List (List Char)) (rules : List (List Char × Rule)) : Prop :=
  ∃ lines, List.Forall₂ IsLine text lines ∧ lines.filter (· ≠ .comment) = rules.map fun a => .append a.1 a.2

namespace Compiles

theorem rules {text : List (List Char)} {chain : List Char} {all : List Rule} (read : List.Forall₂ IsLine text (all.map (.append chain))) :
    Compiles text (all.map (chain, ·)) := by
  refine ⟨_, read, ?_⟩
  rw [List.map_map, List.filter_eq_self.mpr]
  · rfl
  · intro line member
    obtain ⟨rule, -, rfl⟩ := List.mem_map.mp member
    rfl

theorem append {text more : List (List Char)} {first second : List (List Char × Rule)} (one : Compiles text first) (two : Compiles more second) :
    Compiles (text ++ more) (first ++ second) := by
  obtain ⟨lines, read, kept⟩ := one
  obtain ⟨others, also, kept'⟩ := two
  refine ⟨lines ++ others, List.rel_append read also, ?_⟩
  rw [List.filter_append, kept, kept', List.map_append]

theorem comment {chars : List Char} (line : IsLine chars .comment) : Compiles [chars] [] := ⟨[.comment], .cons line .nil, rfl⟩

end Compiles

theorem pieces_compile {α : Type} {pieces : List (Option (List (List Char)))} {items : List α} {rules : α → List (List Char × Rule)}
    (each : List.Forall₂ (fun a piece => ∃ text, piece = some text ∧ Compiles text (rules a)) items pieces) :
    ∃ texts, pieces.mapM id = some texts ∧ Compiles texts.flatten (items.flatMap rules) := by
  induction each with
  | nil => exact ⟨[], rfl, [], .nil, rfl⟩
  | cons first _ ih =>
    obtain ⟨text, written, compiles⟩ := first
    obtain ⟨texts, all, others⟩ := ih
    refine ⟨text :: texts, ?_, compiles.append others⟩
    rw [List.mapM_cons, id, written, all]
    rfl

theorem compileRule_lines {rule : FirewallRule} (valid : ValidRule node config rule) :
    ∃ text, compileRule node config rule = some text ∧ Compiles text ((rule.compiled node config).map (rule.direction.chain.toList, ·)) := by
  have skipped : ∀ reason, '\n' ∉ reason.toList → rule.source.tests node config .src = [] ∨ rule.target.tests node config .dst = [] →
      ∃ text, some [skippedLine rule reason] = some text ∧ Compiles text ((rule.compiled node config).map (rule.direction.chain.toList, ·)) := by
    intro reason unbroken none_
    refine ⟨_, rfl, ?_⟩
    have empty : rule.compiled node config = [] := by
      rcases none_ with source | target
      · simp [FirewallRule.compiled, FirewallRule.alternatives, source]
      · simp [FirewallRule.compiled, FirewallRule.alternatives, target]
    rw [empty]
    exact .comment (skippedLine_comment valid.printable unbroken)
  rw [compileRule]
  rcases expandEndpoint_spelled valid.source .src with ⟨sources, expanded, spelled⟩ | ⟨reason, failed, unbroken, none_⟩
  · rw [expanded]
    rcases expandEndpoint_spelled valid.target .dst with ⟨targets, expanded', spelled'⟩ | ⟨reason, failed, unbroken, none_⟩
    · cases sources with
      | nil => exact skipped _ (by decide) (.inl (List.forall₂_nil_left_iff.mp spelled))
      | cons source sources =>
        dsimp only
        rw [expanded']
        cases targets with
        | nil => exact skipped _ (by decide) (.inr (List.forall₂_nil_left_iff.mp spelled'))
        | cons target targets =>
          dsimp only
          have sources' := (List.forall₂_and_left _ _).mpr ⟨fun _ member => member, spelled.flip⟩
          have targets' := (List.forall₂_and_left _ _).mpr ⟨fun _ member => member, spelled'.flip⟩
          have kinds : List.Forall₂ (fun kind proto => kind ∈ rule.protocol.kinds ∧ proto = kind.map protoName) rule.protocol.kinds
              rule.protocol.protos := by
            rw [protos_kinds, List.forall₂_map_right_iff, List.forall₂_same]
            exact fun kind member => ⟨member, rfl⟩
          have each : List.Forall₂ (fun test piece => ∃ text, piece = some text ∧
              Compiles text ((rule.lines test).map (rule.direction.chain.toList, ·))) (rule.alternatives node config)
              (rule.protocol.protos.flatMap fun proto => (source :: sources).flatMap fun source => (target :: targets).map fun target =>
                emitRule rule rule.direction.chain proto source target) := by
            refine List.rel_flatMap kinds fun kind proto known => ?_
            refine List.rel_flatMap sources' fun from_ source start => ?_
            refine List.rel_map (fun to_ target stop => ?_) targets'
            obtain ⟨lines, written, read⟩ := emitRule_lines valid known.1 start.2 stop.2 start.1 stop.1
            exact ⟨lines, known.2 ▸ written, .rules read⟩
          obtain ⟨texts, all, compiles⟩ := pieces_compile each
          rw [all]
          refine ⟨texts.flatten, rfl, ?_⟩
          rwa [FirewallRule.compiled, List.map_flatMap]
    · cases sources with
      | nil => exact skipped _ (by decide) (.inl (List.forall₂_nil_left_iff.mp spelled))
      | cons source sources =>
        dsimp only
        rw [failed]
        exact skipped reason unbroken (.inr none_)
  · rw [failed]
    exact skipped reason unbroken (.inl none_)

end Router
