import WolfStack.Router.FirewallRuleset

/-! The rule set as a whole: that it is accepted, and that it means what the rules say. -/

namespace Router
open Text Netfilter

variable {node : FirewallNode} {config : FirewallConfig}

/-! ### The rule set -/

def standardRules : List Rule :=
  [[.load .conntrack, .ctstate [.established, .related], .jump .accept], [.interface .source loopback, .jump .accept]]

def intelRules : List Rule :=
  [[.load .conntrack, .ctstate [.new], .load .set, .matchSet intelSet .source, .jump .drop],
    [.load .set, .matchSet intelSet .destination, .jump .drop]]

def intelJump : Rule := [.jump (.chain intelChain)]

def openingLines (enforced : Bool) : List Line :=
  filterChains.map (fun chain => .chain chain.toList) ++ (filterChains.flatMap (fun chain => standardRules.map (.append chain.toList)) ++
    if enforced then .chain intelChain :: intelRules.map (.append intelChain) ++
      [Direction.input, .forward, .output].map fun direction => .append direction.chain.toList intelJump
    else [])

def openingTable (enforced : Bool) : Table :=
  ⟨filterChains.map String.toList ++ if enforced then [intelChain] else [],
    (filterChains.flatMap fun chain => standardRules.map (chain.toList, ·)) ++
      if enforced then intelRules.map (intelChain, ·) ++ [Direction.input, .forward, .output].map fun direction => (direction.chain.toList, intelJump)
      else []⟩

theorem opening_read (enforced : Bool) : List.Forall₂ IsLine ("*filter".toList :: (filterChains.map fun chain => (":" ++ chain ++ " - [0:0]").toList) ++
    filterChains.flatMap standardLines ++ threatIntelLines enforced) (.table "filter".toList :: openingLines enforced) := by
  have chain : ∀ chain ∈ filterChains, IsLine (":" ++ chain ++ " - [0:0]").toList (.chain chain.toList) := by decide +kernel
  have standard : ∀ chain ∈ filterChains, List.Forall₂ IsLine (standardLines chain) (standardRules.map (.append chain.toList)) := by
    have tracked : ∀ chain ∈ filterChains, IsLine ("-A " ++ chain ++ " -m conntrack --ctstate ESTABLISHED,RELATED -j ACCEPT").toList
        (.append chain.toList [.load .conntrack, .ctstate [.established, .related], .jump .accept]) := by decide +kernel
    have local_ : ∀ chain ∈ filterChains, IsLine ("-A " ++ chain ++ " -i lo -j ACCEPT").toList
        (.append chain.toList [.interface .source loopback, .jump .accept]) := by decide +kernel
    exact fun chain member => .cons (tracked chain member) (.cons (local_ chain member) .nil)
  rw [openingLines, List.append_assoc, List.cons_append]
  refine .cons (by decide +kernel) (List.rel_append ?_ (List.rel_append ?_ ?_))
  · rw [List.forall₂_map_right_iff, List.forall₂_map_left_iff, List.forall₂_same]
    exact chain
  · have same : List.Forall₂ (fun a b => List.Forall₂ IsLine (standardLines a) (standardRules.map (.append b.toList))) filterChains filterChains :=
      List.forall₂_same.mpr standard
    exact List.rel_flatMap same fun _ _ lines => lines
  · cases enforced with
    | false => exact .nil
    | true =>
      exact .cons (by decide +kernel) (.cons (by decide +kernel) (.cons (by decide +kernel) (.cons (by decide +kernel)
        (.cons (by decide +kernel) (.cons (by decide +kernel) .nil)))))

theorem opening_built (enforced : Bool) : (openingLines enforced).foldlM Table.step ⟨[], []⟩ = some (openingTable enforced) := by
  cases enforced <;> decide

variable (node config)

def configRules (rules : List FirewallRule) : List (List Char × Rule) :=
  rules.flatMap fun rule => (rule.compiled node config).map (rule.direction.chain.toList, ·)

def rulesetTable (enforced : Bool) : Table :=
  ⟨(openingTable enforced).declared, (openingTable enforced).appended ++ configRules node config (rulesHere node config)⟩

variable {node config}

theorem chain_inj {one two : Direction} (same : one.chain.toList = two.chain.toList) : one = two := by
  cases one <;> cases two <;> first | rfl | exact absurd same (by decide)

theorem chain_config (rules : List FirewallRule) (direction : Direction) :
    ((configRules node config rules).filter fun a => a.1 = direction.chain.toList).map Prod.snd =
      (rules.filter fun rule => rule.direction = direction).flatMap (FirewallRule.compiled node config) := by
  induction rules with
  | nil => rfl
  | cons rule rest ih =>
    rw [configRules, List.flatMap_cons, List.filter_append, List.map_append, ← configRules, ih]
    by_cases here : rule.direction = direction
    · rw [List.filter_cons_of_pos (by simpa using here), List.flatMap_cons, here]
      congr 1
      simp [List.filter_map, Function.comp_def]
    · rw [List.filter_cons_of_neg (by simpa using here)]
      have none_ : ((rule.compiled node config).map (rule.direction.chain.toList, ·)).filter (fun a => a.1 = direction.chain.toList) = [] := by
        refine List.filter_eq_nil_iff.mpr fun a member same => ?_
        obtain ⟨_, -, rfl⟩ := List.mem_map.mp member
        exact here (chain_inj (of_decide_eq_true same))
      rw [none_]
      rfl

theorem mem_config {rules : List FirewallRule} {a : List Char × Rule} (member : a ∈ configRules node config rules) :
    ∃ rule ∈ rules, a.1 = rule.direction.chain.toList ∧ a.2 ∈ rule.compiled node config := by
  obtain ⟨rule, among, inside⟩ := List.mem_flatMap.mp member
  obtain ⟨compiled, within, rfl⟩ := List.mem_map.mp inside
  exact ⟨rule, among, rfl, within⟩

theorem compiled_ends {rule : FirewallRule} (valid : ValidRule node config rule) :
    ∀ compiled ∈ rule.compiled node config, ∀ name, compiled.target ≠ some (.chain name) := by
  intro compiled member name leads
  obtain ⟨test, among, inside⟩ := List.mem_flatMap.mp member
  have only := FirewallRule.alternatives_only valid test among
  have action : ∀ action : Action, action.target ≠ .chain name := fun action => by cases action <;> nofun
  have ends : compiled = rule.logRule test ∨ compiled = rule.actionRule test := by
    rw [FirewallRule.lines] at inside
    split at inside
    · simpa using inside
    · exact .inr (List.mem_singleton.mp inside)
  rcases ends with rfl | rfl
  · rw [FirewallRule.logRule, Rule.target_tests only] at leads
    cases leads
  · rw [FirewallRule.actionRule, Rule.target_tests only] at leads
    exact action _ (Option.some.inj leads)

theorem ruleset_chain (enforced : Bool) (direction : Direction) : (rulesetTable node config enforced).rules direction.chain.toList =
    standardRules ++ ((if enforced then [intelJump] else []) ++
      ((rulesHere node config).filter fun rule => rule.direction = direction).flatMap (FirewallRule.compiled node config)) := by
  have opening : (openingTable enforced).rules direction.chain.toList = standardRules ++ if enforced then [intelJump] else [] := by
    cases enforced <;> cases direction <;> decide
  rw [Table.rules, rulesetTable, List.filter_append, List.map_append, chain_config, ← List.append_assoc, ← opening, Table.rules]

theorem ruleset_intel (enforced : Bool) : (rulesetTable node config enforced).rules intelChain = if enforced then intelRules else [] := by
  have opening : (openingTable enforced).rules intelChain = if enforced then intelRules else [] := by
    cases enforced <;> decide
  have apart : ∀ direction : Direction, direction.chain.toList ≠ intelChain := fun direction => by cases direction <;> decide
  have none_ : (configRules node config (rulesHere node config)).filter (fun a => a.1 = intelChain) = [] := by
    refine List.filter_eq_nil_iff.mpr fun a member same => ?_
    obtain ⟨rule, -, chain, -⟩ := mem_config member
    exact apart rule.direction (chain.symm.trans (of_decide_eq_true same))
  rw [Table.rules, rulesetTable, List.filter_append, none_, List.append_nil, ← opening, Table.rules]

theorem ruleset_loopFree (enforced : Bool) (valid : ∀ rule ∈ rulesHere node config, ValidRule node config rule) :
    (rulesetTable node config enforced).loopFree = true := by
  have intel : ∀ depth, (rulesetTable node config enforced).shallow (depth + 1) intelChain = true := by
    refine Table.shallow_end fun rule member name leads => ?_
    rw [ruleset_intel] at member
    have ends : ∀ rule ∈ intelRules, rule.target = some .drop := by decide
    cases enforced with
    | false => cases member
    | true =>
      rw [ends rule member] at leads
      cases leads
  have main : ∀ (direction : Direction) depth, (rulesetTable node config enforced).shallow (depth + 2) direction.chain.toList = true := by
    intro direction depth
    rw [Table.shallow, List.all_eq_true, ruleset_chain]
    intro rule member
    have standard : ∀ rule ∈ standardRules, rule.target = some .accept := by decide
    split
    next name leads =>
      rcases List.mem_append.mp member with first | later
      · rw [standard rule first] at leads
        cases leads
      · rcases List.mem_append.mp later with jump | configured
        · have only : rule = intelJump := by
            cases enforced with
            | false => cases jump
            | true => exact List.mem_singleton.mp jump
          have same : name = intelChain := by
            rw [only] at leads
            exact (Target.chain.inj (Option.some.inj leads)).symm
          rw [same]
          exact intel depth
        · obtain ⟨origin, among, compiled⟩ := List.mem_flatMap.mp configured
          exact absurd leads (compiled_ends (valid origin (List.mem_of_mem_filter among)) rule compiled name)
    next => rfl
  rw [Table.loopFree, List.all_eq_true]
  have forward := main .forward
  have input := main .input
  have output := main .output
  cases enforced with
  | false => exact List.forall_mem_cons.mpr ⟨forward 1, List.forall_mem_cons.mpr ⟨input 1, List.forall_mem_singleton.mpr (output 1)⟩⟩
  | true =>
    exact List.forall_mem_cons.mpr ⟨forward 2, List.forall_mem_cons.mpr ⟨input 2, List.forall_mem_cons.mpr
      ⟨output 2, List.forall_mem_singleton.mpr (intel 3)⟩⟩⟩

theorem config_walk (valid : ∀ rule ∈ rulesHere node config, ValidRule node config rule) (sets : Sets) (direction : Direction) {p : Packet}
    (new : p.state = .new) (others : List Char → Outcome) :
    walk sets p others (((rulesHere node config).filter fun rule => rule.direction = direction).flatMap (FirewallRule.compiled node config)) =
      match (rulesHere node config).find? fun rule => rule.direction = direction && rule.covers node config p with
      | some rule => rule.outcome
      | none => .left := by
  have each : ∀ rule ∈ (rulesHere node config).filter fun rule => rule.direction = direction, ∀ rest,
      walk sets p others (rule.compiled node config ++ rest) =
        if rule.covers node config p then rule.outcome else walk sets p others rest := fun rule member rest =>
    FirewallRule.compiled_walk (valid rule (List.mem_of_mem_filter member)) sets new others rest
  have first := walk_first sets p each []
  rw [List.append_nil, List.find?_filter] at first
  simp only [Bool.decide_and, Bool.decide_eq_true] at first
  refine first.trans ?_
  cases (rulesHere node config).find? _ <;> rfl

theorem intel_walk (sets : Sets) {p : Packet} (new : p.state = .new) (others : List Char → Outcome) :
    walk sets p others intelRules = if sets intelSet p.source || sets intelSet p.destination then .decided .drop else .left := by
  have source : Rule.matches_ sets p [.load .conntrack, .ctstate [.new], .load .set, .matchSet intelSet .source, .jump .drop] =
      sets intelSet p.source := by
    simp [Rule.matches_, Opt.holds, new, Packet.address]
  have destination : Rule.matches_ sets p [.load .set, .matchSet intelSet .destination, .jump .drop] = sets intelSet p.destination := by
    simp [Rule.matches_, Opt.holds, Packet.address]
  rw [intelRules, walk, source, walk, destination]
  cases sets intelSet p.source <;> cases sets intelSet p.destination <;> rfl

theorem ruleset_outcome (enforced : Bool) (valid : ∀ rule ∈ rulesHere node config, ValidRule node config rule) (sets : Sets)
    (direction : Direction) {p : Packet} (new : p.state = .new) :
    (rulesetTable node config enforced).outcome sets p direction.chain.toList = meaning node config enforced sets direction p := by
  obtain ⟨depth, deep⟩ : ∃ depth, (rulesetTable node config enforced).declared.length = depth + 2 := by
    cases enforced
    · exact ⟨1, rfl⟩
    · exact ⟨2, rfl⟩
  have tracked : Rule.matches_ sets p [.load .conntrack, .ctstate [.established, .related], .jump .accept] = false := by
    simp [Rule.matches_, Opt.holds, new]
  have local_ : Rule.matches_ sets p [.interface .source loopback, .jump .accept] = decide (p.inInterface = some loopback) := by
    have plain : loopback.getLast? ≠ some '+' := by decide
    rw [Bool.eq_iff_iff, decide_eq_true_iff]
    simp only [Rule.matches_, List.all_cons, List.all_nil, Opt.holds, Opt.namesInterface, if_neg plain, Bool.and_true]
    exact decide_eq_true_iff
  rw [Table.outcome, deep, Table.descend, ruleset_chain, standardRules, List.cons_append, walk_passed sets p tracked, List.cons_append, walk, local_,
    List.nil_append, meaning]
  by_cases loops : p.inInterface = some loopback
  · rw [decide_eq_true loops, if_pos rfl, if_pos loops]
    rfl
  · rw [decide_eq_false loops, if_neg Bool.false_ne_true, if_neg loops]
    cases enforced with
    | false => exact config_walk valid sets direction new _
    | true =>
      have jump : walk sets p ((rulesetTable node config true).descend sets p (depth + 1)) (intelJump ::
          ((rulesHere node config).filter fun rule => rule.direction = direction).flatMap (FirewallRule.compiled node config)) =
          ((rulesetTable node config true).descend sets p (depth + 1) intelChain).andThen (walk sets p _ _) := rfl
      rw [if_pos rfl, List.singleton_append, jump, Table.descend, ruleset_intel, if_pos rfl, intel_walk sets new, config_walk valid sets direction new,
        Bool.true_and]
      cases sets intelSet p.source || sets intelSet p.destination <;> rfl

theorem config_taken (enforced : Bool) (valid : ∀ rule ∈ rulesHere node config, ValidRule node config rule) :
    ∀ a ∈ configRules node config (rulesHere node config), Table.takes (openingTable enforced).declared a.1 a.2 = true := by
  have declared : ∀ direction : Direction, direction.chain.toList ∈ (openingTable enforced).declared := fun direction => by
    cases enforced <;> cases direction <;> decide
  intro a member
  obtain ⟨rule, among, chain, compiled⟩ := mem_config member
  rw [Table.takes, chain, decide_eq_true (declared _), Bool.true_and]
  split
  next name leads => exact absurd leads (compiled_ends (valid rule among) _ compiled name)
  next => rfl

theorem rules_compile {rules : List FirewallRule} (valid : ∀ rule ∈ rules, ValidRule node config rule) :
    ∃ texts, rules.mapM (compileRule node config) = some texts ∧ Compiles texts.flatten (configRules node config rules) := by
  induction rules with
  | nil => exact ⟨[], rfl, [], .nil, rfl⟩
  | cons rule rest ih =>
    obtain ⟨text, written, compiles⟩ := compileRule_lines (valid rule List.mem_cons_self)
    obtain ⟨texts, all, others⟩ := ih fun rule member => valid rule (List.mem_cons_of_mem _ member)
    refine ⟨text :: texts, ?_, compiles.append others⟩
    rw [List.mapM_cons, written, all]
    rfl

theorem ruleset_restored (enforced : Bool) (intel : node.threatIntelLines = threatIntelLines enforced)
    (valid : ∀ rule ∈ rulesHere node config, ValidRule node config rule) :
    ∃ ruleset, buildRuleset node config = some ruleset ∧ restore (linesText ruleset) = some (rulesetTable node config enforced) := by
  obtain ⟨texts, written, lines, read, kept⟩ := rules_compile valid
  refine ⟨_, congrArg (Option.map _) written, ?_⟩
  have commit : IsLine "COMMIT".toList .commit := by decide
  have whole := List.rel_append (List.rel_append (opening_read enforced) read) (.cons commit .nil)
  have opening : (openingLines enforced).filter (· ≠ .comment) = openingLines enforced := by cases enforced <;> decide
  dsimp only
  rw [intel, linesText]
  refine restore_lines (openingLines enforced ++ (configRules node config (rulesHere node config)).map fun a => .append a.1 a.2) whole ?_ ?_
    (ruleset_loopFree enforced valid)
  · rw [List.filter_append, List.filter_append, kept, List.filter_cons_of_pos (by decide), opening, List.cons_append, List.cons_append]
    rfl
  · rw [List.foldlM_append, opening_built]
    exact Table.fold_rules _ (config_taken enforced valid)

/-- The rule set is accepted, and the packets of new connections get what the rules mean for them. -/
theorem ruleset_means (enforced : Bool) (intel : node.threatIntelLines = threatIntelLines enforced)
    (valid : ∀ rule ∈ rulesHere node config, ValidRule node config rule) :
    ∃ ruleset table, buildRuleset node config = some ruleset ∧ restore (linesText ruleset) = some table ∧
      ∀ sets direction p, p.state = .new →
        table.outcome sets p direction.chain.toList = meaning node config enforced sets direction p := by
  obtain ⟨ruleset, written, restored⟩ := ruleset_restored enforced intel valid
  exact ⟨ruleset, rulesetTable node config enforced, written, restored, fun sets direction p new => ruleset_outcome enforced valid sets direction new⟩

/-- The node `gate`, with one interface that faces the LAN and one that faces the world. -/
def gate (enforced : Bool) : FirewallNode := ⟨"gate", [], threatIntelLines enforced⟩

def gateConfig (rules : List FirewallRule) : FirewallConfig := ⟨fun _ => [("br-lan0", .lan 0), ("eth0", .wan)], [], rules, true⟩

def telnetRule : FirewallRule :=
  ⟨"rule-23ab", true, 0, .deny, .forward, .zone (.lan 0), .any, .tcp, [⟨"23", .dst⟩], true, false, none⟩

/-- Web traffic from the LAN to one network is let through, and logged. -/
def webRule : FirewallRule :=
  ⟨"rule-5f2c", true, 1, .allow, .forward, .zone (.lan 0), .ip "10.20.0.0/16", .tcpudp, [⟨"8000-8100", .dst⟩], true, true, none⟩

def restRule : FirewallRule := ⟨"rule-last", true, 9, .reject, .forward, .any, .any, .any, [], true, false, none⟩

def gateRules : List FirewallRule := [telnetRule, webRule, restRule]

def packetFrom (interface : String) (source : BitVec 32) (port : BitVec 16) : Packet :=
  ⟨source, 0x0a140007, some interface.toList, some "eth0".toList, .tcp 40000 port, .new⟩

theorem rulesHere_sorted {node : FirewallNode} {rules : List FirewallRule} (here : ∀ rule ∈ rules, rule.enabled = true ∧ rule.nodeId = none)
    (sorted : rules.Pairwise fun a b => a.order ≤ b.order) : rulesHere node (gateConfig rules) = rules := by
  have enabled : rules.filter FirewallRule.enabled = rules := List.filter_eq_self.mpr fun rule member => (here rule member).1
  have mine : rules.filter (fun rule => rule.nodeId.all (· = node.selfNodeId)) = rules := by
    refine List.filter_eq_self.mpr fun rule member => ?_
    rw [(here rule member).2]
    rfl
  rw [rulesHere, gateConfig, enabled, mine]
  exact List.mergeSort_of_pairwise (sorted.imp fun before => decide_eq_true before)

theorem lan_valid (enforced : Bool) (rules : List FirewallRule) :
    ∀ m ∈ (gateConfig rules).membersForZoneOnNode (gate enforced).selfNodeId (.lan 0), ValidInterface m := by
  have lan : (gateConfig rules).membersForZoneOnNode (gate enforced).selfNodeId (.lan 0) = ["br-lan0"] := rfl
  rw [lan]
  exact List.forall_mem_singleton.mpr (by decide)

theorem gateRules_valid (enforced : Bool) : ∀ rule ∈ gateRules, ValidRule (gate enforced) (gateConfig gateRules) rule := by
  refine List.forall_mem_cons.mpr ⟨?_, List.forall_mem_cons.mpr ⟨?_, List.forall_mem_singleton.mpr ?_⟩⟩
  · exact ⟨lan_valid enforced gateRules, trivial, fun _ => List.forall_mem_singleton.mpr (by decide), fun _ => List.nodup_singleton _,
      by decide, (takeBytes_isSome_iff _ _).mp (by decide)⟩
  · refine ⟨lan_valid enforced gateRules, ?_, fun _ => List.forall_mem_singleton.mpr (by decide), fun _ => List.nodup_singleton _,
      by decide, (takeBytes_isSome_iff _ _).mp (by decide)⟩
    change (readNetwork "10.20.0.0/16".toList).isSome = true
    decide
  · exact ⟨trivial, trivial, fun _ => List.forall_mem_nil _, fun _ => List.nodup_nil, by decide, (takeBytes_isSome_iff _ _).mp (by decide)⟩

/-- The second rule decides about web traffic, the first about telnet, the last about the rest,
and none about a listed address. -/
theorem web_traffic_passes : ∃ ruleset table, buildRuleset (gate true) (gateConfig gateRules) = some ruleset ∧
    restore (linesText ruleset) = some table ∧
    let outcome := fun p => table.outcome (fun _ a => a = 0xcb007109) p "WOLFROUTER_FWD".toList
    outcome (packetFrom "br-lan0" 0xc0a80a02 8080) = ⟨[(1, "wolfrouter-rule-5f2 ".toList)], some .accept⟩ ∧
      outcome (packetFrom "br-lan0" 0xc0a80a02 23) = ⟨[], some .drop⟩ ∧
      outcome (packetFrom "br-lan0" 0xc0a80a02 9000) = ⟨[], some .reject⟩ ∧
      outcome (packetFrom "br-lan0" 0xcb007109 8080) = ⟨[], some .drop⟩ := by
  have here : rulesHere (gate true) (gateConfig gateRules) = gateRules := rulesHere_sorted (by decide) (by decide)
  have valid : ∀ rule ∈ rulesHere (gate true) (gateConfig gateRules), ValidRule (gate true) (gateConfig gateRules) rule := by
    rw [here]
    exact gateRules_valid true
  obtain ⟨ruleset, table, written, restored, means⟩ := ruleset_means true rfl valid
  refine ⟨ruleset, table, written, restored, ?_⟩
  dsimp only
  refine ⟨(means _ .forward _ rfl).trans ?_, (means _ .forward _ rfl).trans ?_, (means _ .forward _ rfl).trans ?_,
    (means _ .forward _ rfl).trans ?_⟩ <;> (rw [meaning, here]; decide +kernel)

/-- The verdict of the first rule that allows, denies or rejects and matches in all that it names, its ports too. -/
def firstVerdict (node : FirewallNode) (config : FirewallConfig) (direction : Direction) (p : Packet) : Option Verdict :=
  ((rulesHere node config).find? fun rule => rule.action ≠ .log && rule.direction = direction && rule.source.covers node config .src p &&
    rule.target.covers node config .dst p && rule.protocol.covers p.transport && rule.onPorts p.transport .src &&
    rule.onPorts p.transport .dst).bind fun rule => rule.action.verdict

/-- What the rule set that is in force while threat intel is, or is not, enforced says of a packet. -/
def Gives (enforced : Bool) (rules : List FirewallRule) (sets : Sets) (direction : Direction) (p : Packet) (verdict : Option Verdict) : Prop :=
  ∃ ruleset table, buildRuleset (gate enforced) (gateConfig rules) = some ruleset ∧ restore (linesText ruleset) = some table ∧
    (table.outcome sets p direction.chain.toList).verdict = verdict

def anyRule (id : String) (order : Int) (action : Action) (ports : List PortSpec) : FirewallRule :=
  ⟨id, true, order, action, .input, .any, .any, .any, ports, true, false, none⟩

theorem anyRule_valid {node : FirewallNode} {config : FirewallConfig} {id : String} {order : Int} {action : Action} {ports : List PortSpec}
    (printable : Printable id.toList) (cut : (takeBytes (min (byteLen id.toList) 8) id.toList).isSome = true) :
    ValidRule node config (anyRule id order action ports) where
  source := trivial
  target := trivial
  ports := by rintro (impossible | impossible | impossible) <;> cases impossible
  single := by rintro (impossible | impossible | impossible) <;> cases impossible
  printable := printable
  cut := (takeBytes_isSome_iff _ _).mp cut

theorem gives {enforced : Bool} {rules : List FirewallRule} {sets : Sets} {direction : Direction} {p : Packet} {verdict : Option Verdict}
    (valid : ∀ rule ∈ rulesHere (gate enforced) (gateConfig rules), ValidRule (gate enforced) (gateConfig rules) rule)
    (new : p.state = .new) (says_ : (meaning (gate enforced) (gateConfig rules) enforced sets direction p).verdict = verdict) :
    Gives enforced rules sets direction p verdict := by
  obtain ⟨ruleset, written, restored⟩ := ruleset_restored enforced rfl valid
  exact ⟨ruleset, _, written, restored, (congrArg Outcome.verdict (ruleset_outcome enforced valid sets direction new)).trans says_⟩

def denyAll : FirewallRule := anyRule "rule-90ab" 2 .deny []

def denySsh : FirewallRule := anyRule "rule-77d1" 2 .deny [⟨"22", .dst⟩]

def logAll : FirewallRule := anyRule "rule-41ee" 1 .log []

def allowAll : FirewallRule := anyRule "rule-c0de" 2 .allow []

/-- What comes from the node itself is let in past a rule that denies all; a rule that only logs keeps the
rules after it from deciding; ports make no difference where all protocols are meant; and what threat intel
lists is dropped although all is allowed. -/
theorem rule_set_differs :
    (Gives false [denyAll] (fun _ _ => false) .input (packetFrom "lo" 0x7f000001 80) (some .accept) ∧
      firstVerdict (gate false) (gateConfig [denyAll]) .input (packetFrom "lo" 0x7f000001 80) = some .drop) ∧
    (Gives false [logAll, denyAll] (fun _ _ => false) .input (packetFrom "eth0" 0xcb007109 80) none ∧
      firstVerdict (gate false) (gateConfig [logAll, denyAll]) .input (packetFrom "eth0" 0xcb007109 80) = some .drop) ∧
    (Gives false [denySsh] (fun _ _ => false) .input (packetFrom "eth0" 0xcb007109 80) (some .drop) ∧
      firstVerdict (gate false) (gateConfig [denySsh]) .input (packetFrom "eth0" 0xcb007109 80) = none) ∧
    Gives true [allowAll] (fun _ a => a = 0xcb007109) .input (packetFrom "eth0" 0xcb007109 80) (some .drop) ∧
      firstVerdict (gate true) (gateConfig [allowAll]) .input (packetFrom "eth0" 0xcb007109 80) = some .accept := by
  have one : ∀ {node rule}, rule.enabled = true → rule.nodeId = none → rulesHere node (gateConfig [rule]) = [rule] := fun enabled anywhere =>
    rulesHere_sorted (List.forall_mem_singleton.mpr ⟨enabled, anywhere⟩) (List.pairwise_singleton _ _)
  have deny : ∀ {node}, rulesHere node (gateConfig [denyAll]) = [denyAll] := one rfl rfl
  have ssh : ∀ {node}, rulesHere node (gateConfig [denySsh]) = [denySsh] := one rfl rfl
  have allow : ∀ {node}, rulesHere node (gateConfig [allowAll]) = [allowAll] := one rfl rfl
  have both : ∀ {node}, rulesHere node (gateConfig [logAll, denyAll]) = [logAll, denyAll] := rulesHere_sorted (by decide) (by decide)
  have valid : ∀ {node config}, ∀ rule ∈ [denyAll, denySsh, allowAll, logAll], ValidRule node config rule := by
    intro node config
    refine List.forall_mem_cons.mpr ⟨?_, List.forall_mem_cons.mpr ⟨?_, List.forall_mem_cons.mpr ⟨?_, List.forall_mem_singleton.mpr ?_⟩⟩⟩ <;>
      exact anyRule_valid (by decide) (by decide)
  refine ⟨⟨gives ?_ rfl ?_, ?_⟩, ⟨gives ?_ rfl ?_, ?_⟩, ⟨gives ?_ rfl ?_, ?_⟩, gives ?_ rfl ?_, ?_⟩
  · rw [deny]
    exact List.forall_mem_singleton.mpr (valid denyAll (by decide))
  · rw [meaning, deny]
    decide +kernel
  · rw [firstVerdict, deny]
    decide +kernel
  · rw [both]
    exact List.forall_mem_cons.mpr ⟨valid logAll (by decide), List.forall_mem_singleton.mpr (valid denyAll (by decide))⟩
  · rw [meaning, both]
    decide +kernel
  · rw [firstVerdict, both]
    decide +kernel
  · rw [ssh]
    exact List.forall_mem_singleton.mpr (valid denySsh (by decide))
  · rw [meaning, ssh]
    decide +kernel
  · rw [firstVerdict, ssh]
    decide +kernel
  · rw [allow]
    exact List.forall_mem_singleton.mpr (valid allowAll (by decide))
  · rw [meaning, allow]
    decide +kernel
  · rw [firstVerdict, allow]
    decide +kernel

end Router
