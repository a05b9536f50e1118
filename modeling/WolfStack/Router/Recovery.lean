import WolfStack.Router.Artefacts

/-! What comes back of a LAN and of a PPPoE link when they are read from their files? -/

namespace Router
open Auth

variable {lan : LanSegment} {iface netmask : String} {adblockHosts : Bool} {d : LanDraft} {value : List Char}

def isKeyword (keyword : List Char) : Bool :=
  (keyword.head?.any fun c => !isWhitespace c && c ≠ '#') && keyword.getLast?.any fun c => !isWhitespace c

theorem trimChars_value {keyword : List Char} (proper : isKeyword keyword = true) : trimChars (keyword ++ value) = keyword ++ trimEnd value := by
  obtain ⟨first, last⟩ := Bool.and_eq_true_iff.mp proper
  obtain ⟨c, head, lit⟩ := Option.any_eq_true _ _ |>.mp first
  obtain ⟨l, end_, dark⟩ := Option.any_eq_true _ _ |>.mp last
  obtain ⟨middle, begins⟩ := List.head?_eq_some_iff.mp head
  obtain ⟨front, ends⟩ := List.getLast?_eq_some_iff.mp end_
  have open_ : isWhitespace c = false := by
    have both := Bool.and_eq_true_iff.mp lit
    simpa using both.1
  exact trimChars_keyword open_ (by simpa using dark) ⟨begins, front, ends⟩ value

theorem head_value {keyword : List Char} (proper : isKeyword keyword = true) (rest : List Char) :
    ∃ c, (keyword ++ rest).head? = some c ∧ c ≠ '#' := by
  obtain ⟨first, -⟩ := Bool.and_eq_true_iff.mp proper
  obtain ⟨c, head, lit⟩ := Option.any_eq_true _ _ |>.mp first
  obtain ⟨middle, rfl⟩ := List.head?_eq_some_iff.mp head
  exact ⟨c, rfl, by simpa using (Bool.and_eq_true_iff.mp lit).2⟩

def apart (keyword other : List Char) : Bool := !keyword.isPrefixOf other && !other.isPrefixOf keyword

theorem stripPrefix_apart {keyword other rest : List Char} (differ : apart keyword other = true) :
    stripPrefix other (keyword ++ rest) = none := by
  obtain ⟨first, second⟩ := Bool.and_eq_true_iff.mp differ
  exact stripPrefix_other ⟨by simpa using first, by simpa using second⟩

theorem read_comment (text : List Char) : d.read ('#' :: text) = d := by
  have kept : trimChars ('#' :: text) = ['#'] ++ trimEnd text :=
    @trimChars_keyword ['#'] '#' '#' [] (by decide) (by decide) ⟨rfl, [], rfl⟩ text
  unfold LanDraft.read
  rw [kept]
  rfl

def strange (keyword : List Char) : Bool :=
  isKeyword keyword && apart keyword "interface=".toList && apart keyword "dhcp-range=".toList && apart keyword "dhcp-option=".toList

theorem read_strange {keyword : List Char} (no : strange keyword = true) : d.read (keyword ++ value) = d := by
  unfold strange at no
  simp only [Bool.and_eq_true] at no
  obtain ⟨⟨⟨proper, first⟩, second⟩, third⟩ := no
  obtain ⟨c, head, lit⟩ := head_value proper (trimEnd value)
  unfold LanDraft.read
  rw [trimChars_value proper]
  dsimp only
  rw [head, stripPrefix_apart first, stripPrefix_apart second, stripPrefix_apart third]
  simp [lit]

theorem read_interface : d.read ("interface=".toList ++ value) = { d with interface := some (String.ofList (trimChars value)) } := by
  have proper : isKeyword "interface=".toList = true := by decide
  obtain ⟨c, head, lit⟩ := head_value proper (trimEnd value)
  unfold LanDraft.read
  rw [trimChars_value proper]
  dsimp only
  rw [head, stripPrefix_append]
  simp [lit, trimChars_trimEnd]

theorem read_range : d.read ("dhcp-range=".toList ++ value) = d.readRange (trimEnd value) := by
  have proper : isKeyword "dhcp-range=".toList = true := by decide
  obtain ⟨c, head, lit⟩ := head_value proper (trimEnd value)
  unfold LanDraft.read
  rw [trimChars_value proper]
  dsimp only
  rw [head, stripPrefix_apart (by decide), stripPrefix_append]
  simp [lit]

theorem read_option : d.read ("dhcp-option=".toList ++ value) = d.readOption (trimEnd value) := by
  have proper : isKeyword "dhcp-option=".toList = true := by decide
  obtain ⟨c, head, lit⟩ := head_value proper (trimEnd value)
  unfold LanDraft.read
  rw [trimChars_value proper]
  dsimp only
  rw [head, stripPrefix_apart (by decide), stripPrefix_apart (by decide), stripPrefix_append]
  simp [lit]

def Skipped (line : String) : Prop := ∀ d : LanDraft, d.read line.toList = d

theorem skipped_strange (keyword value : String) (no : strange keyword.toList = true) : Skipped (keyword ++ value) := by
  intro d
  rw [String.toList_append]
  exact read_strange no

theorem skipped_all {all : List String} (skipped : ∀ line ∈ all, Skipped line) (d : LanDraft) :
    (all.map String.toList).foldl LanDraft.read d = d := by
  induction all generalizing d with
  | nil => rfl
  | cons line rest ih =>
    rw [List.map_cons, List.foldl_cons, skipped line List.mem_cons_self]
    exact ih (fun line member => skipped line (List.mem_cons_of_mem _ member)) d

def LanDraft.bound (iface : String) : LanDraft := { LanDraft.empty with interface := some (trim iface) }

theorem read_head : ((headLines lan iface).map String.toList).foldl LanDraft.read .empty = .bound iface := by
  have opening : ∀ line ∈ ["# WolfRouter LAN: " ++ lan.name ++ " (" ++ lan.id ++ ")", "# Managed by WolfStack — do not edit by hand."],
      Skipped line := by
    simp only [List.forall_mem_cons, List.not_mem_nil, false_implies, implies_true, and_true]
    constructor
    · intro d
      simp only [String.toList_append, List.append_assoc]
      exact read_comment _
    · exact fun d => read_comment _
  have heal : ∀ line ∈ (if iface ≠ lan.interface then
      ["# Self-heal active: configured interface is '" ++ lan.interface ++ "', but router_ip " ++ lan.routerIp ++ " is on '" ++
        iface ++ "', so dnsmasq is bound to '" ++ iface ++ "'."] else []), Skipped line := by
    intro line member
    split at member
    · rw [List.mem_singleton.mp member]
      intro d
      simp only [String.toList_append, List.append_assoc]
      exact read_comment _
    · cases member
  have closing : ∀ line ∈ ["bind-interfaces", "except-interface=lo", "pid-file=/run/wolfstack-router/lan-" ++ lan.id ++ ".pid",
      "dhcp-leasefile=/var/lib/wolfstack-router/lan-" ++ lan.id ++ ".leases", "no-resolv", "no-hosts", "no-poll", "dhcp-authoritative"],
      Skipped line := by
    simp only [List.forall_mem_cons, List.not_mem_nil, false_implies, implies_true, and_true]
    refine ⟨?_, ?_, ?_, ?_, ?_, ?_, ?_, ?_⟩
    · exact skipped_strange "bind-interfaces" "" (by decide)
    · exact skipped_strange "except-interface=lo" "" (by decide)
    · intro d
      simp only [String.toList_append, List.append_assoc]
      exact @read_strange d _ "pid-file=/run/wolfstack-router/lan-".toList (by decide)
    · intro d
      simp only [String.toList_append, List.append_assoc]
      exact @read_strange d _ "dhcp-leasefile=/var/lib/wolfstack-router/lan-".toList (by decide)
    · exact skipped_strange "no-resolv" "" (by decide)
    · exact skipped_strange "no-hosts" "" (by decide)
    · exact skipped_strange "no-poll" "" (by decide)
    · exact skipped_strange "dhcp-authoritative" "" (by decide)
  unfold headLines
  rw [List.map_append, List.map_append, List.foldl_append, List.foldl_append, skipped_all opening, skipped_all heal, List.map_cons,
    List.foldl_cons, String.toList_append, read_interface, skipped_all closing]
  rfl

theorem dns_skipped : ∀ line ∈ dnsLines lan adblockHosts, Skipped line := by
  unfold dnsLines
  split
  · simp only [List.forall_mem_cons, List.not_mem_nil, false_implies, implies_true, and_true]
    exact ⟨fun d => read_comment _, skipped_strange "port=0" "" (by decide)⟩
  · simp only [List.forall_mem_append]
    refine ⟨⟨⟨⟨⟨⟨?_, ?_⟩, ?_⟩, ?_⟩, ?_⟩, ?_⟩, ?_⟩
    · simp only [List.forall_mem_cons, List.not_mem_nil, false_implies, implies_true, and_true]
      exact ⟨skipped_strange "port=" _ (by decide), skipped_strange "cache-size=" _ (by decide)⟩
    · rw [List.forall_mem_map]
      exact fun fwd _ => skipped_strange "server=" fwd (by decide)
    · split
      · exact List.forall_mem_singleton.mpr (skipped_strange "add-subnet=32,128" "" (by decide))
      · exact List.forall_mem_nil _
    · rw [List.forall_mem_map]
      intro rec _ d
      simp only [String.toList_append, List.append_assoc]
      exact @read_strange d _ "host-record=".toList (by decide)
    · intro line member
      obtain ⟨wc, -, written⟩ := List.mem_filterMap.mp member
      unfold renderWildcardLine at written
      dsimp only at written
      split at written
      · cases written
      · obtain rfl := Option.some.inj written
        intro d
        simp only [String.toList_append, List.append_assoc]
        exact @read_strange d _ "address=/".toList (by decide)
    · split
      · exact List.forall_mem_singleton.mpr (skipped_strange "addn-hosts=/etc/wolfstack/router/adblock-hosts" "" (by decide))
      · exact List.forall_mem_nil _
    · split
      · simp only [List.forall_mem_cons, List.not_mem_nil, false_implies, implies_true, and_true]
        refine ⟨skipped_strange "log-queries" "" (by decide), fun d => ?_⟩
        simp only [String.toList_append, List.append_assoc]
        exact @read_strange d _ "log-facility=/var/lib/wolfstack-router/lan-".toList (by decide)
      · exact List.forall_mem_nil _

theorem hosts_skipped : ∀ line ∈ lan.dhcp.reservations.map dhcpHost, Skipped line := by
  rw [List.forall_mem_map]
  intro r _
  unfold dhcpHost
  dsimp only
  split <;>
  · intro d
    simp only [String.toList_append, List.append_assoc]
    exact @read_strange d _ "dhcp-host=".toList (by decide)

def LanSegment.drafted (lan : LanSegment) (iface netmask : String) : LanDraft :=
  lan.dhcp.extraOptions.foldl (fun d opt => d.readOption (trimEnd opt.toList))
    ((((LanDraft.bound iface).readRange (trimEnd (lan.dhcp.poolStart ++ "," ++ lan.dhcp.poolEnd ++ "," ++ netmask ++ "," ++ lan.dhcp.leaseTime).toList)).readOption
      (trimEnd ("3," ++ lan.routerIp).toList)).readOption (trimEnd ("6," ++ lan.dns.externalServer.getD lan.routerIp).toList))

theorem read_lan (whole : ∀ line ∈ headLines lan iface ++ dhcpLines lan netmask ++ dnsLines lan adblockHosts, Unbroken line.toList) :
    (lines (linesText ((headLines lan iface ++ dhcpLines lan netmask ++ dnsLines lan adblockHosts).map String.toList))).foldl LanDraft.read
      .empty = lan.drafted iface netmask := by
  have extras : ∀ (opts : List String) (d : LanDraft), ((opts.map fun opt => "dhcp-option=" ++ opt).map String.toList).foldl LanDraft.read d =
      opts.foldl (fun d opt => d.readOption (trimEnd opt.toList)) d := by
    intro opts
    induction opts with
    | nil => exact fun _ => rfl
    | cons opt rest ih =>
      intro d
      rw [List.map_cons, List.map_cons, List.foldl_cons, List.foldl_cons, String.toList_append, read_option]
      exact ih _
  rw [lines_linesText (List.forall_mem_map.mpr whole), List.map_append, List.map_append, List.foldl_append, List.foldl_append, read_head,
    skipped_all dns_skipped]
  unfold dhcpLines LanSegment.drafted
  rw [List.map_append, List.map_append, List.foldl_append, List.foldl_append, skipped_all hosts_skipped, extras]
  have range : ∀ d : LanDraft, d.read ("dhcp-range=" ++ lan.dhcp.poolStart ++ "," ++ lan.dhcp.poolEnd ++ "," ++ netmask ++ "," ++ lan.dhcp.leaseTime).toList =
      d.readRange (trimEnd (lan.dhcp.poolStart ++ "," ++ lan.dhcp.poolEnd ++ "," ++ netmask ++ "," ++ lan.dhcp.leaseTime).toList) := by
    intro d
    simp only [String.toList_append, List.append_assoc]
    exact read_range
  have router : ∀ d : LanDraft, d.read ("dhcp-option=3," ++ lan.routerIp).toList = d.readOption (trimEnd ("3," ++ lan.routerIp).toList) := by
    intro d
    have cut : ("dhcp-option=3," ++ lan.routerIp).toList = "dhcp-option=".toList ++ ("3," ++ lan.routerIp).toList := by
      simp [String.toList_append]
    rw [cut, read_option]
  have server : ∀ d : LanDraft, d.read ("dhcp-option=6," ++ lan.dns.externalServer.getD lan.routerIp).toList =
      d.readOption (trimEnd ("6," ++ lan.dns.externalServer.getD lan.routerIp).toList) := by
    intro d
    have cut : ("dhcp-option=6," ++ lan.dns.externalServer.getD lan.routerIp).toList =
        "dhcp-option=".toList ++ ("6," ++ lan.dns.externalServer.getD lan.routerIp).toList := by
      simp [String.toList_append]
    rw [cut, read_option]
  simp only [List.map_cons, List.map_nil, List.foldl_cons, List.foldl_nil, range, router, server]

def optionOf (v : List Char) : Option (String × List Char) :=
  (splitOnce ',' v).map fun parts => (String.ofList (trimChars parts.1), trimChars parts.2)

def routerOf (v : List Char) : Option String :=
  (optionOf v).bind fun option => if option.1 = "3" then some (String.ofList option.2) else none

def serversIn (value : List Char) : List String := (((splitOn ',' value).map trimChars).filter (· ≠ [])).map String.ofList

def serversOf (v : List Char) : List String :=
  (optionOf v).elim [] fun option => if option.1 = "6" then serversIn option.2 else []

theorem readOption_eq (v : List Char) :
    d.readOption v = { d with routerIp := (routerOf v).or d.routerIp, dnsServers := d.dnsServers ++ serversOf v } := by
  unfold LanDraft.readOption routerOf serversOf optionOf
  cases splitOnce ',' v with
  | none => simp
  | some parts =>
    simp only [Option.map_some, Option.bind_some, Option.elim_some]
    by_cases router : String.ofList (trimChars parts.1) = "3"
    · simp [router]
    · by_cases server : String.ofList (trimChars parts.1) = "6"
      · simp [server, serversIn]
      · simp [router, server]

theorem optionOf_code (code : Char) (dark : isWhitespace code = false) (plain : code ≠ ',') (value : List Char) :
    optionOf (trimEnd ([code, ','] ++ value)) = some (String.ofList [code], trimChars value) := by
  have kept : trimEnd ([code, ','] ++ value) = [code] ++ ',' :: trimEnd value := by
    have cut := @trimEnd_dark ',' (by decide) [code] value
    simpa using cut
  have alone : trimChars [code] = [code] := by
    have whole := @trimChars_keyword [code] code code [] dark dark ⟨rfl, [], rfl⟩ []
    simpa [trimEnd] using whole
  rw [optionOf, kept, splitOnce_append (by simpa using Ne.symm plain)]
  simp only [Option.map_some, alone, trimChars_trimEnd]

/-- The last router that extra options name, and all servers that they name. -/
def LanSegment.extraRouter (lan : LanSegment) : Option String :=
  (lan.dhcp.extraOptions.filterMap fun opt => routerOf (trimEnd opt.toList)).getLast?

def LanSegment.extraServers (lan : LanSegment) : List String := lan.dhcp.extraOptions.flatMap fun opt => serversOf (trimEnd opt.toList)

theorem extras_eq (opts : List String) : opts.foldl (fun d opt => d.readOption (trimEnd opt.toList)) d =
    { d with
      routerIp := (opts.filterMap fun opt => routerOf (trimEnd opt.toList)).getLast?.or d.routerIp
      dnsServers := d.dnsServers ++ opts.flatMap fun opt => serversOf (trimEnd opt.toList) } := by
  induction opts generalizing d with
  | nil => simp
  | cons opt rest ih =>
    rw [List.foldl_cons, ih, readOption_eq]
    cases named : routerOf (trimEnd opt.toList) with
    | none => simp [named]
    | some router =>
      simp only [List.filterMap_cons, named, List.getLast?_cons, Option.some_or, List.flatMap_cons, List.append_assoc]
      cases (rest.filterMap fun opt => routerOf (trimEnd opt.toList)).getLast? <;> rfl

theorem drafted_eq : lan.drafted iface netmask =
    { (LanDraft.bound iface).readRange
        (trimEnd (lan.dhcp.poolStart ++ "," ++ lan.dhcp.poolEnd ++ "," ++ netmask ++ "," ++ lan.dhcp.leaseTime).toList) with
      routerIp := lan.extraRouter.or (some (trim lan.routerIp))
      dnsServers := serversIn (trimChars (lan.dns.externalServer.getD lan.routerIp).toList) ++ lan.extraServers } := by
  have router : optionOf (trimEnd ("3," ++ lan.routerIp).toList) = some ("3", trimChars lan.routerIp.toList) := by
    rw [String.toList_append]
    exact optionOf_code '3' (by decide) (by decide) lan.routerIp.toList
  have server : optionOf (trimEnd ("6," ++ lan.dns.externalServer.getD lan.routerIp).toList) =
      some ("6", trimChars (lan.dns.externalServer.getD lan.routerIp).toList) := by
    rw [String.toList_append]
    exact optionOf_code '6' (by decide) (by decide) (lan.dns.externalServer.getD lan.routerIp).toList
  have untouched : ∀ v, ((LanDraft.bound iface).readRange v).dnsServers = [] := by
    intro v
    unfold LanDraft.readRange
    split <;> rfl
  rw [LanSegment.drafted, extras_eq, readOption_eq, readOption_eq]
  simp only [routerOf, serversOf, router, server, Option.bind_some, Option.elim_some, untouched, LanSegment.extraRouter, LanSegment.extraServers]
  simp [trim_eq]

def Plain (text : String) : Prop := ',' ∉ text.toList ∧ trim text = text

theorem trimChars_subset {chars : List Char} {c : Char} (member : c ∈ trimChars chars) : c ∈ chars := by
  unfold trimChars trimEnd trimStart at member
  have inner := List.mem_reverse.mp member
  have front := List.mem_reverse.mp ((List.dropWhile_suffix _).subset inner)
  exact (List.dropWhile_suffix _).subset front

theorem first_part_iff {text : String} {part : List Char} {parts : List (List Char)} (shape : splitOn ',' text.toList = part :: parts) :
    String.ofList (trimChars part) = text ↔ Plain text := by
  constructor
  · intro same
    have plain : ',' ∉ text.toList := by
      intro member
      rw [← same, String.toList_ofList] at member
      exact splitOn_part part (shape ▸ List.mem_cons_self) (trimChars_subset member)
    have alone : splitOn ',' text.toList = [text.toList] := splitOn_plain plain
    rw [shape, List.cons.injEq] at alone
    refine ⟨plain, ?_⟩
    rw [trim_eq, ← alone.1, same]
  · rintro ⟨plain, trimmed⟩
    have alone : splitOn ',' text.toList = [text.toList] := splitOn_plain plain
    rw [shape, List.cons.injEq] at alone
    rw [alone.1, ← trim_eq, trimmed]

theorem plain_part {text : String} (plain : Plain text) : splitOn ',' text.toList = [text.toList] := splitOn_plain plain.1

theorem range_iff {start end_ lease : String} (mask : Plain netmask) (r : LanDraft)
    (read : r = d.readRange (trimEnd (start ++ "," ++ end_ ++ "," ++ netmask ++ "," ++ lease).toList)) (other : String) :
    (r.dhcpStart = some start ∧ r.dhcpEnd = some end_ ∧ r.dhcpLease.getD other = lease) ↔ Plain start ∧ Plain end_ ∧ lease = netmask := by
  have kept : trimEnd (start ++ "," ++ end_ ++ "," ++ netmask ++ "," ++ lease).toList =
      start.toList ++ ',' :: (end_.toList ++ ',' :: (netmask.toList ++ ',' :: trimEnd lease.toList)) := by
    have cut := @trimEnd_dark ',' (by decide) (start ++ "," ++ end_ ++ "," ++ netmask).toList lease.toList
    simpa [String.toList_append] using cut
  rw [kept, LanDraft.readRange, splitOn_append, splitOn_append, splitOn_append, plain_part mask] at read
  obtain ⟨s, ss, starts⟩ := List.exists_cons_of_ne_nil (@splitOn_ne_nil start.toList ',')
  by_cases first : Plain start
  · rw [and_iff_right first, plain_part first, List.singleton_append] at *
    obtain ⟨e, es, ends⟩ := List.exists_cons_of_ne_nil (@splitOn_ne_nil end_.toList ',')
    have started : r.dhcpStart = some start := by
      rw [read, ends]
      exact congrArg some ((first_part_iff (plain_part first)).mpr first)
    rw [and_iff_right started]
    have ended : r.dhcpEnd = some (String.ofList (trimChars e)) := by
      rw [read, ends]
      rfl
    rw [ended, Option.some.injEq, first_part_iff ends]
    apply and_congr_right
    intro second
    have leased : r.dhcpLease = some netmask := by
      rw [read, plain_part second]
      exact congrArg some ((first_part_iff (plain_part mask)).mpr mask)
    rw [leased, Option.getD_some]
    exact eq_comm
  · have started : r.dhcpStart = some (String.ofList (trimChars s)) := by
      rw [read, starts]
      obtain ⟨t, ts, more⟩ := List.exists_cons_of_ne_nil (List.append_ne_nil_of_right_ne_nil ss (List.append_ne_nil_of_left_ne_nil
        (@splitOn_ne_nil end_.toList ',') ([netmask.toList] ++ splitOn ',' (trimEnd lease.toList))))
      rw [List.cons_append, more]
      rfl
    rw [started, Option.some.injEq, first_part_iff starts]
    exact iff_of_false (fun all => first all.1) fun all => first all.1

theorem digits_plain {text : String} (digits : ∀ c ∈ text.toList, c.isDigit = true ∨ c = '.') : Plain text := by
  have dark : ∀ c : Char, c.isDigit = true ∨ c = '.' → isWhitespace c = false ∧ c ≠ ',' := by
    rintro c (digit | rfl)
    · refine ⟨digit_dark digit, ?_⟩
      rintro rfl
      exact absurd digit (by decide)
    · decide
  constructor
  · intro comma
    exact (dark ',' (digits ',' comma)).2 rfl
  · exact trim_clean text fun c member => (dark c (digits c member)).1

theorem number_digits (n : Nat) : ∀ c ∈ (toString n).toList, c.isDigit = true := by
  intro c member
  rw [Nat.toString_eq_ofList_toDigits, String.toList_ofList] at member
  exact Nat.isDigit_of_mem_toDigits (by decide) (by decide) member

theorem netmask_plain (prefix_ : Nat) : Plain (prefixToNetmask prefix_) := by
  apply digits_plain
  have number : ∀ n : Nat, ∀ c ∈ (toString n).toList, c.isDigit = true ∨ c = '.' := fun n c member => .inl (number_digits n c member)
  have dot : ∀ c ∈ ".".toList, c.isDigit = true ∨ c = '.' := by
    have one : ".".toList = ['.'] := rfl
    rw [one]
    exact List.forall_mem_singleton.mpr (.inr rfl)
  unfold prefixToNetmask
  split
  · intro c member
    have all : ("255.255.255.255".toList.all fun c => c.isDigit || c == '.') = true := by decide
    simpa using List.all_eq_true.mp all c member
  · unfold dottedQuad
    simp only [String.toList_append, List.forall_mem_append]
    exact ⟨⟨⟨⟨⟨⟨number _, dot⟩, number _⟩, dot⟩, number _⟩, dot⟩, number _⟩

def LanReadsBack (lan : LanSegment) (iface : String) (found : Option LanSegment) : Prop :=
  ∃ r, found = some r ∧ r.interface = iface ∧ r.dhcp.poolStart = lan.dhcp.poolStart ∧ r.dhcp.poolEnd = lan.dhcp.poolEnd ∧
    r.dhcp.leaseTime = lan.dhcp.leaseTime ∧ r.routerIp = lan.routerIp ∧
    (lan.dns.mode = .wolfRouter → r.dns.forwarders = lan.dns.forwarders)

/-- A LAN of which all comes back: the text of its netmask is its lease time, its extra
options name no other router, and its forwarders are the servers that its clients are told. -/
structure Legible (lan : LanSegment) (iface netmask : String) : Prop where
  interface : trim iface = iface
  start : Plain lan.dhcp.poolStart ∧ lan.dhcp.poolStart ≠ ""
  end_ : Plain lan.dhcp.poolEnd ∧ lan.dhcp.poolEnd ≠ ""
  lease : lan.dhcp.leaseTime = netmask
  router : lan.extraRouter.getD (trim lan.routerIp) = lan.routerIp
  forwarders : lan.dns.mode = .wolfRouter →
    serversIn (trimChars (lan.dns.externalServer.getD lan.routerIp).toList) ++ lan.extraServers = lan.dns.forwarders

theorem parsed_lan (whole : ∀ line ∈ headLines lan iface ++ dhcpLines lan netmask ++ dnsLines lan adblockHosts, Unbroken line.toList)
    (mask : Plain netmask) : LanReadsBack lan iface (parseLanFromDnsmasq lan.id
      (linesText ((headLines lan iface ++ dhcpLines lan netmask ++ dnsLines lan adblockHosts).map String.toList))) ↔
      Legible lan iface netmask := by
  unfold LanReadsBack parseLanFromDnsmasq
  rw [read_lan whole, drafted_eq]
  generalize read : (LanDraft.bound iface).readRange
    (trimEnd (lan.dhcp.poolStart ++ "," ++ lan.dhcp.poolEnd ++ "," ++ netmask ++ "," ++ lan.dhcp.leaseTime).toList) = r
  have range := range_iff mask r read.symm "12h"
  have bound : r.interface = some (trim iface) := by
    rw [← read, LanDraft.readRange]
    split <;> rfl
  simp only [bound]
  by_cases pool : (decide (r.dhcpStart.getD "" = "") || decide (r.dhcpEnd.getD "" = "")) = true
  · rw [if_pos pool]
    apply iff_of_false
    · rintro ⟨found, same, -⟩
      cases same
    · intro legible
      obtain ⟨start, end_, -⟩ := range.mpr ⟨legible.start.1, legible.end_.1, legible.lease⟩
      rw [start, end_, Option.getD_some, Option.getD_some] at pool
      rcases Bool.or_eq_true_iff.mp pool with empty | empty
      · exact legible.start.2 (of_decide_eq_true empty)
      · exact legible.end_.2 (of_decide_eq_true empty)
  · rw [if_neg pool]
    rw [Bool.not_eq_true, Bool.or_eq_false_iff, decide_eq_false_iff_not, decide_eq_false_iff_not] at pool
    constructor
    · rintro ⟨found, same, interface, start, end_, lease, router, forwarders⟩
      obtain rfl := Option.some.inj same
      dsimp only at interface start end_ lease router forwarders
      have started : r.dhcpStart = some lan.dhcp.poolStart := by
        cases held : r.dhcpStart with
        | none => exact absurd (by rw [held]; rfl) pool.1
        | some text => rw [← start, held, Option.getD_some]
      have ended : r.dhcpEnd = some lan.dhcp.poolEnd := by
        cases held : r.dhcpEnd with
        | none => exact absurd (by rw [held]; rfl) pool.2
        | some text => rw [← end_, held, Option.getD_some]
      obtain ⟨plain, plain_, mask_⟩ := range.mp ⟨started, ended, lease⟩
      refine ⟨interface, ⟨plain, start ▸ pool.1⟩, ⟨plain_, end_ ▸ pool.2⟩, mask_, ?_, forwarders⟩
      cases named : lan.extraRouter with
      | none => simpa [named] using router
      | some other => simpa [named] using router
    · intro legible
      obtain ⟨start, end_, lease⟩ := range.mpr ⟨legible.start.1, legible.end_.1, legible.lease⟩
      refine ⟨_, rfl, legible.interface, ?_, ?_, lease, ?_, legible.forwarders⟩
      · rw [start, Option.getD_some]
      · rw [end_, Option.getD_some]
      · have router := legible.router
        cases named : lan.extraRouter with
        | none => simpa [named] using router
        | some other => simpa [named] using router

/-! ### A PPPoE link -/

theorem peer_strange {p : PeerDraft} {keyword : List Char} (proper : isKeyword keyword = true)
    (other : apart keyword "plugin rp-pppoe.so".toList = true) : (p.read (keyword ++ value)).isPppoe = p.isPppoe := by
  obtain ⟨c, head, lit⟩ := head_value proper (trimEnd value)
  unfold PeerDraft.read
  rw [trimChars_value proper]
  dsimp only
  rw [head, stripPrefix_apart other]
  split
  · rfl
  · dsimp only
    split
    · rfl
    · unfold PeerDraft.readRest
      repeat' split
      all_goals rfl

def NoPlugin (line : String) : Prop := ∀ p : PeerDraft, (p.read line.toList).isPppoe = p.isPppoe

theorem noPlugin_comment {line : String} (text : List Char) (cut : line.toList = '#' :: text) : NoPlugin line := by
  intro p
  have kept : trimChars ('#' :: text) = ['#'] ++ trimEnd text :=
    @trimChars_keyword ['#'] '#' '#' [] (by decide) (by decide) ⟨rfl, [], rfl⟩ _
  rw [cut]
  unfold PeerDraft.read
  rw [kept]
  rfl

theorem noPlugin_strange {line : String} (keyword rest : List Char) (cut : line.toList = keyword ++ rest)
    (proper : isKeyword keyword = true ∧ apart keyword "plugin rp-pppoe.so".toList = true) : NoPlugin line := by
  intro p
  rw [cut]
  exact peer_strange proper.1 proper.2

theorem noPlugin_all {all : List String} (none_ : ∀ line ∈ all, NoPlugin line) (p : PeerDraft) :
    ((all.map String.toList).foldl PeerDraft.read p).isPppoe = p.isPppoe := by
  induction all generalizing p with
  | nil => rfl
  | cons line rest ih =>
    rw [List.map_cons, List.foldl_cons, ih (fun line member => none_ line (List.mem_cons_of_mem _ member))]
    exact none_ line List.mem_cons_self p

variable {conn : WanConnection} {cfg : PppoeConfig}

theorem unbroken_of_check {field v : String} (checked : noNewlines field v = .ok ()) : Unbroken v.toList := by
  unfold noNewlines at checked
  split at checked
  · cases checked
  · rename_i clean
    exact not_or.mp clean

theorem unbroken_number (n : Nat) : Unbroken (toString n).toList :=
  ⟨fun member => absurd (number_digits n _ member) (by decide), fun member => absurd (number_digits n _ member) (by decide)⟩

theorem bind_ok {ε α β : Type} {x : Except ε α} {f : α → Except ε β} {b : β} (done : x >>= f = .ok b) :
    ∃ a, x = .ok a ∧ f a = .ok b := by
  cases x with
  | error e => cases done
  | ok a => exact ⟨a, rfl, done⟩

theorem valid_unbroken (mode : conn.mode = .pppoe cfg) (valid : conn.validate = .ok ()) :
    Unbroken conn.name.toList ∧ Unbroken conn.interface.toList ∧ Unbroken cfg.username.toList ∧ Unbroken cfg.serviceName.toList := by
  unfold WanConnection.validate at valid
  obtain ⟨⟨⟩, name, valid⟩ := bind_ok valid
  obtain ⟨⟨⟩, interface, valid⟩ := bind_ok valid
  obtain ⟨⟨⟩, description, valid⟩ := bind_ok valid
  have moded : validateMode conn.mode = .ok () := by
    dsimp only at valid
    split at valid
    · cases valid
    · exact valid
  rw [mode, validateMode] at moded
  obtain ⟨⟨⟩, username, moded⟩ := bind_ok moded
  obtain ⟨⟨⟩, password, moded⟩ := bind_ok moded
  obtain ⟨⟨⟩, serviceName, moded⟩ := bind_ok moded
  exact ⟨unbroken_of_check name, unbroken_of_check interface, unbroken_of_check username, unbroken_of_check serviceName⟩

theorem peer_unbroken (id : Unbroken conn.id.toList) (fields : Unbroken conn.name.toList ∧ Unbroken conn.interface.toList ∧
    Unbroken cfg.username.toList ∧ Unbroken cfg.serviceName.toList) : ∀ line ∈ pppoePeer conn cfg, Unbroken line.toList := by
  obtain ⟨name, interface, username, serviceName⟩ := fields
  unfold pppoePeer
  simp only [List.forall_mem_append]
  refine ⟨⟨⟨⟨⟨⟨⟨?_, ?_⟩, ?_⟩, ?_⟩, ?_⟩, ?_⟩, ?_⟩, ?_⟩
  · simp only [List.forall_mem_cons, List.not_mem_nil, false_implies, implies_true, and_true]
    refine ⟨?_, by decide, unbroken_append (by decide) interface, ?_⟩
    · exact unbroken_append (unbroken_append (unbroken_append (unbroken_append (by decide) id) (by decide)) name) (by decide)
    · exact unbroken_append (unbroken_append (by decide) username) (by decide)
  · split
    · exact List.forall_mem_singleton.mpr (unbroken_append (unbroken_append (by decide) serviceName) (by decide))
    · exact List.forall_mem_nil _
  · decide
  · split <;> decide
  · split <;> decide
  · simp only [List.forall_mem_cons, List.not_mem_nil, false_implies, implies_true, and_true]
    exact ⟨by decide, by decide, unbroken_append (by decide) (unbroken_number _), unbroken_append (by decide) (unbroken_number _)⟩
  · split <;> decide
  · split
    · simp only [List.forall_mem_cons, List.not_mem_nil, false_implies, implies_true, and_true]
      exact ⟨unbroken_append (by decide) (unbroken_number _), unbroken_append (by decide) (unbroken_number _)⟩
    · exact List.forall_mem_nil _

theorem peer_noPlugin : ∀ line ∈ pppoePeer conn cfg, NoPlugin line := by
  have word : ∀ text : String, isKeyword text.toList = true ∧ apart text.toList "plugin rp-pppoe.so".toList = true → NoPlugin text :=
    fun text proper => noPlugin_strange text.toList [] (List.append_nil _).symm proper
  have value : ∀ (keyword : String) (rest : String), isKeyword keyword.toList = true ∧ apart keyword.toList "plugin rp-pppoe.so".toList = true →
      NoPlugin (keyword ++ rest) := fun keyword rest proper => noPlugin_strange keyword.toList rest.toList String.toList_append proper
  have spaced : ∀ (whole keyword rest : String), whole = keyword ++ " " →
      isKeyword keyword.toList = true ∧ apart keyword.toList "plugin rp-pppoe.so".toList = true → NoPlugin (whole ++ rest) := by
    intro whole keyword rest shape proper
    rw [shape, String.append_assoc]
    exact value keyword _ proper
  unfold pppoePeer
  simp only [List.forall_mem_append]
  refine ⟨⟨⟨⟨⟨⟨⟨?_, ?_⟩, ?_⟩, ?_⟩, ?_⟩, ?_⟩, ?_⟩, ?_⟩
  · simp only [List.forall_mem_cons, List.not_mem_nil, false_implies, implies_true, and_true]
    refine ⟨?_, noPlugin_comment _ rfl, ?_, ?_⟩
    · apply noPlugin_comment
      simp only [String.toList_append, List.append_assoc]
      rfl
    · exact spaced "plugin pppoe.so " "plugin pppoe.so" _ rfl (by decide)
    · rw [String.append_assoc]
      exact value "name \"" _ (by decide)
  · split
    · rw [String.append_assoc]
      exact List.forall_mem_singleton.mpr (value "rp_pppoe_service \"" _ (by decide))
    · exact List.forall_mem_nil _
  · simp only [List.forall_mem_cons, List.not_mem_nil, false_implies, implies_true, and_true]
    exact ⟨word "noauth" (by decide), word "hide-password" (by decide), word "noipdefault" (by decide)⟩
  · split
    · simp only [List.forall_mem_cons, List.not_mem_nil, false_implies, implies_true, and_true]
      exact ⟨word "defaultroute" (by decide), word "replacedefaultroute" (by decide)⟩
    · exact List.forall_mem_singleton.mpr (word "nodefaultroute" (by decide))
  · split
    · exact List.forall_mem_singleton.mpr (word "usepeerdns" (by decide))
    · exact List.forall_mem_nil _
  · simp only [List.forall_mem_cons, List.not_mem_nil, false_implies, implies_true, and_true]
    refine ⟨word "noaccomp" (by decide), word "default-asyncmap" (by decide), ?_, ?_⟩
    · exact spaced "mtu " "mtu" _ rfl (by decide)
    · exact spaced "mru " "mru" _ rfl (by decide)
  · split
    · simp only [List.forall_mem_cons, List.not_mem_nil, false_implies, implies_true, and_true]
      exact ⟨word "persist" (by decide), word "maxfail 0" (by decide)⟩
    · exact List.forall_mem_nil _
  · split
    · simp only [List.forall_mem_cons, List.not_mem_nil, false_implies, implies_true, and_true]
      constructor
      · exact spaced "lcp-echo-interval " "lcp-echo-interval" _ rfl (by decide)
      · exact spaced "lcp-echo-failure " "lcp-echo-failure" _ rfl (by decide)
    · exact List.forall_mem_nil _

theorem parsed_peer (id : Unbroken conn.id.toList) (mode : conn.mode = .pppoe cfg) (valid : conn.validate = .ok ()) :
    parsePppoeFromPeer conn.id (linesText ((pppoePeer conn cfg).map String.toList)) = none := by
  unfold parsePppoeFromPeer
  rw [lines_linesText (List.forall_mem_map.mpr (peer_unbroken id (valid_unbroken mode valid)))]
  dsimp only
  rw [noPlugin_all peer_noPlugin]
  rfl

def PeerReadsBack (conn : WanConnection) (cfg : PppoeConfig) (found : Option WanConnection) : Prop :=
  ∃ r back, found = some r ∧ r.mode = .pppoe back ∧ r.interface = conn.interface ∧ back.username = cfg.username ∧
    back.serviceName = cfg.serviceName ∧ back.mtu = cfg.mtu ∧ back.mru = cfg.mru ∧ back.persist = cfg.persist ∧
    back.lcpEchoInterval = cfg.lcpEchoInterval ∧ back.lcpEchoFailure = cfg.lcpEchoFailure ∧
    back.useDefaultRoute = cfg.useDefaultRoute ∧ back.usePeerDns = cfg.usePeerDns

/-- The two formats, where no text that is written breaks a line. -/
theorem recovery_iff (lan : LanSegment) (iface : String) (adblockHosts : Bool) (ip : List Char) (prefix_ : Nat) (written : List String)
    (conn : WanConnection) (cfg : PppoeConfig) :
    (lan.dhcp.enabled = true → parseCidr lan.subnetCidr = some (ip, prefix_) → renderConfigForIface lan iface adblockHosts = .ok written →
      (∀ line ∈ written, Unbroken line.toList) →
      (LanReadsBack lan iface (parseLanFromDnsmasq lan.id (linesText (written.map String.toList))) ↔
        Legible lan iface (prefixToNetmask prefix_))) ∧
    (conn.mode = .pppoe cfg → conn.validate = .ok () → Unbroken conn.id.toList →
      ¬PeerReadsBack conn cfg (parsePppoeFromPeer conn.id (linesText ((pppoePeer conn cfg).map String.toList)))) := by
  constructor
  · intro enabled cidr rendered whole
    unfold renderConfigForIface at rendered
    rw [if_pos enabled, cidr] at rendered
    obtain rfl := Except.ok.inj rendered
    exact parsed_lan whole (netmask_plain prefix_)
  · rintro mode valid id ⟨r, back, found, -⟩
    rw [parsed_peer id mode valid] at found
    cases found

def homeLan (leaseTime : String) : LanSegment where
  id := "lan-1"
  name := "Home"
  nodeId := "node-a"
  interface := "br0"
  zone := .lan 1
  subnetCidr := "10.0.0.0/8"
  routerIp := "10.0.0.1"
  dhcp := ⟨"10.0.0.9", "10.0.0.99", leaseTime, [], [], true⟩
  dns := { DnsServerConfig.default with forwarders := ["10.0.0.1"] }
  description := ""

def homeLines (leaseTime : String) : List String :=
  headLines (homeLan leaseTime) "br0" ++ dhcpLines (homeLan leaseTime) (prefixToNetmask 8) ++ dnsLines (homeLan leaseTime) false

def dialUp : PppoeConfig := ⟨"bob", "secret", "", 1492, 1492, true, 30, 4, true, false⟩

def uplink : WanConnection := ⟨"wan-1", "Fibre", "node-a", "eth0", .pppoe dialUp, true, ""⟩

theorem home_cidr : parseCidr "10.0.0.0/8" = some ("10.0.0.0".toList, 8) := by decide

theorem home_rendered (leaseTime : String) : renderConfigForIface (homeLan leaseTime) "br0" false = .ok (homeLines leaseTime) := by
  have on : (homeLan leaseTime).dhcp.enabled = true := rfl
  have network : (homeLan leaseTime).subnetCidr = "10.0.0.0/8" := rfl
  unfold renderConfigForIface
  rw [if_pos on, network, home_cidr]
  rfl

/-- A LAN whose lease time is the text of its netmask. -/
theorem recovery_sample : LanReadsBack (homeLan "255.0.0.0") "br0"
      (parseLanFromDnsmasq "lan-1" (linesText ((homeLines "255.0.0.0").map String.toList))) ∧
    ¬PeerReadsBack uplink dialUp (parsePppoeFromPeer "wan-1" (linesText ((pppoePeer uplink dialUp).map String.toList))) := by
  constructor
  · have both := recovery_iff (homeLan "255.0.0.0") "br0" false "10.0.0.0".toList 8 (homeLines "255.0.0.0") uplink dialUp
    apply (both.1 rfl home_cidr (home_rendered _) (by decide)).mpr
    exact ⟨by decide, ⟨⟨by decide, by decide⟩, by decide⟩, ⟨⟨by decide, by decide⟩, by decide⟩,
      by decide, by decide, fun _ => by decide⟩
  · have both := recovery_iff (homeLan "255.0.0.0") "br0" false "10.0.0.0".toList 8 (homeLines "255.0.0.0") uplink dialUp
    exact both.2 rfl (by decide) (by decide)

theorem recovery_loses : ¬LanReadsBack (homeLan "12h") "br0" (parseLanFromDnsmasq "lan-1" (linesText ((homeLines "12h").map String.toList))) ∧
    uplink.validate = .ok () ∧
    ¬PeerReadsBack uplink dialUp (parsePppoeFromPeer "wan-1" (linesText ((pppoePeer uplink dialUp).map String.toList))) := by
  refine ⟨?_, by decide, ?_⟩
  · intro back
    have legible := (@parsed_lan (homeLan "12h") "br0" (prefixToNetmask 8) false (by decide) (netmask_plain 8)).mp back
    exact absurd legible.lease (by decide)
  · rintro ⟨r, back, found, -⟩
    have none_ : parsePppoeFromPeer "wan-1" (linesText ((pppoePeer uplink dialUp).map String.toList)) = none :=
      @parsed_peer uplink dialUp (by decide) rfl (by decide)
    rw [none_] at found
    cases found

end Router
