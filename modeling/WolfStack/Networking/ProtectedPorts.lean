import WolfStack.Networking.MappingRules
import WolfStack.Router.Lines

/-! Ports that are kept from being mapped. A new mapping is checked against them; what an
existing one is changed to is not. -/

namespace Networking
open Auth Router

structure BlockedPort where
  port : Nat
  service : String
  always : Bool
deriving DecidableEq, Repr

def blockedPorts : List BlockedPort :=
  [⟨22, "SSH", true⟩, ⟨111, "NFS portmapper", false⟩, ⟨2049, "NFS", false⟩, ⟨3128, "Proxmox CONNECT proxy", false⟩,
    ⟨5900, "Proxmox VNC console", false⟩, ⟨5901, "Proxmox VNC console", false⟩, ⟨5902, "Proxmox VNC console", false⟩,
    ⟨5903, "Proxmox VNC console", false⟩, ⟨5999, "Proxmox SPICE console", false⟩, ⟨8006, "Proxmox Web UI", false⟩,
    ⟨8007, "Proxmox Spiceproxy / PBS Web UI", false⟩, ⟨8443, "Proxmox API", false⟩, ⟨8552, "WolfStack API", true⟩,
    ⟨8553, "WolfStack cluster", true⟩, ⟨9600, "WolfNet", true⟩]

/-- A port that is listened on, and the name of the process if it shows. -/
structure Listening where
  port : Nat
  process : String

def isListening (listening : List Listening) (port : Nat) : Option String :=
  (listening.find? fun e => e.port = port).map Listening.process

def reservedMessage (b : BlockedPort) (live : Option String) : String :=
  "Port " ++ toString b.port ++ " is reserved for " ++ b.service ++
    (match live with
      | some proc => " (currently in use by '" ++ proc ++ "')"
      | none => "") ++
    ". Map a different source port (e.g. " ++ toString (min (b.port + 1000) 65535) ++ "→" ++ toString b.port ++
    ") if you need this service exposed externally."

def blockedMessage (listening : List Listening) (portList : List Nat) : Option String :=
  portList.findSome? fun port => blockedPorts.findSome? fun b =>
    if port = b.port ∧ (b.always ∨ (isListening listening port).isSome) then some (reservedMessage b (isListening listening port)) else none

def isIpv4 (text : String) : Bool :=
  match parseIp text with
  | some (.v4 _) => true
  | _ => false

namespace Edit
variable (e : Edit)

def checkPorts (listening : List Listening) : Except String Unit :=
  match e.ports with
  | none => .ok ()
  | some portStr =>
    if trim portStr = "" then .ok ()
    else if e.protocol = "all" then
      .error "When specifying ports, you must select TCP or UDP (not 'All'). iptables --dport requires a specific protocol."
    else do
      let portList ← parsePortList (trim portStr)
      match blockedMessage listening portList with
      | some message => .error message
      | none => .ok ()

def checkDestPorts : Except String Unit :=
  match e.destPortsClean with
  | none => .ok ()
  | some dpStr =>
    if e.ports.all fun s => trim s = "" then .error "Destination ports require source ports to be specified too."
    else if e.protocol = "all" then .error "When specifying ports, you must select TCP or UDP (not 'All')."
    else do
      let dpList ← parsePortList dpStr
      let spList ← parsePortList (e.ports.getD "")
      if dpList.length ≠ spList.length then
        throw ("Source ports (" ++ toString spList.length ++ ") and destination ports (" ++ toString dpList.length ++
          ") must have the same count.")

def checkNew (gateway : Option String) (listening : List Listening) : Except String Unit :=
  if !isIpv4 e.publicIp then .error ("Invalid public IP: " ++ e.publicIp)
  else if !isIpv4 e.wolfnetIp then .error ("Invalid WolfNet IP: " ++ e.wolfnetIp)
  else if gateway = some e.wolfnetIp then .error "Cannot map to this server's own WolfNet IP — this would create a routing loop"
  else if e.protocol ∉ ["all", "tcp", "udp"] then .error ("Invalid protocol '" ++ e.protocol ++ "' — must be 'all', 'tcp', or 'udp'")
  else do
    e.checkPorts listening
    e.checkDestPorts

def new (id : String) : IpMapping := ⟨id, e.publicIp, e.wolfnetIp, e.ports, e.destPortsClean, e.protocol, true⟩

def duplicates (m : IpMapping) : Bool :=
  m.publicIp = e.publicIp ∧ m.wolfnetIp = e.wolfnetIp ∧ m.ports = e.ports ∧ m.protocol = e.protocol

end Edit

def Host.addIpMapping (host : Host) (listening : List Listening) (mappings : List IpMapping) (id : String) (e : Edit) (t : Tables) :
    Except String IpMapping × Tables :=
  match e.checkNew host.gateway listening with
  | .error message => (.error message, t)
  | .ok () =>
    if mappings.any e.duplicates then (.error (e.publicIp ++ " → " ++ e.wolfnetIp ++ " already mapped with these ports/protocol"), t)
    else match host.applyMappingRules (e.new id) t with
      | (.error message, t) => (.error message, t)
      | (.ok (), t) => (.ok (e.new id), t)

inductive Request where
  | add (id : String) (e : Edit)
  | update (id : String) (e : Edit)
  | remove (id : String)

/-- How writing the file ends. A file that is cut short reads as an empty one. -/
inductive Saving where
  | written
  | untouched
  | torn
deriving DecidableEq, Repr

/-- A request and what it meets: anything may have been done to the rules meanwhile. -/
structure Turn where
  request : Request
  host : Host
  listening : List Listening
  tables : Tables
  saving : Saving

namespace Turn
variable (turn : Turn) (mappings : List IpMapping)

def outcome : Except String (List IpMapping) :=
  match turn.request with
  | .add id e => (turn.host.addIpMapping turn.listening mappings id e turn.tables).1.map fun m => mappings ++ [m]
  | .update id e => (turn.host.updateIpMapping mappings id e turn.tables).1.map fun m => mappings.set (mappings.findIdx fun m => m.id = id) m
  | .remove id => (turn.host.removeIpMapping mappings id turn.tables).1

def after : List IpMapping :=
  match turn.outcome mappings with
  | .error _ => mappings
  | .ok saved => match turn.saving with
    | .written => saved
    | .untouched => mappings
    | .torn => []

end Turn

def serve (turns : List Turn) : List IpMapping := turns.foldl (fun mappings turn => turn.after mappings) []

def portsOf (ports : Option String) : List Nat := ((ports.map parsePortList).bind Except.toOption).getD []

def NamesProtected (ports : Option String) : Prop := ∃ port ∈ portsOf ports, ∃ b ∈ blockedPorts, b.always = true ∧ b.port = port

def Guarded (mappings : List IpMapping) : Prop := ∀ m ∈ mappings, ¬NamesProtected m.ports

/-- An update that names a protected port and fails for no other reason. -/
def Turn.Breaks (turn : Turn) (mappings : List IpMapping) : Prop :=
  match turn.request with
  | .update id e => NamesProtected e.ports ∧ turn.saving = .written ∧ e.check = .ok () ∧ ∃ old,
      mappings.find? (fun m => m.id = id) = some old ∧
        (turn.host.applyMappingRules (e.on old) (turn.host.removeMappingRules old turn.tables)).1 = .ok ()
  | .add .. | .remove _ => False

section
variable {c : Char} {chars first rest : List Char}

theorem splitOn_behind (plain : c ∉ rest) : ∃ front last, splitOn c first = front ++ [last] ∧ splitOn c (first ++ rest) = front ++ [last ++ rest] := by
  induction first with
  | nil => exact ⟨[], [], rfl, splitOn_plain plain⟩
  | cons x first ih =>
    obtain ⟨front, last, before, after⟩ := ih
    rw [List.cons_append, splitOn, splitOn, before, after]
    split
    · exact ⟨[] :: front, last, rfl, rfl⟩
    · cases front with
      | nil => exact ⟨[], x :: last, rfl, rfl⟩
      | cons part front => exact ⟨(x :: part) :: front, last, rfl, rfl⟩

def trimmedParts (chars : List Char) : List (List Char) := (splitOn ',' chars).map trimChars

theorem trimmedParts_start : trimmedParts (trimStart chars) = trimmedParts chars := by
  induction chars with
  | nil => rfl
  | cons x rest ih =>
    cases white : isWhitespace x with
    | false => rw [trimStart, List.dropWhile_cons_of_neg (by simp [white])]
    | true =>
      have other : x ≠ ',' := by
        rintro rfl
        cases white
      obtain ⟨part, parts, shape⟩ := List.exists_cons_of_ne_nil (@splitOn_ne_nil rest ',')
      have same : trimChars (x :: part) = trimChars part := by
        rw [trimChars, trimStart, List.dropWhile_cons_of_pos white]
        rfl
      have now : trimStart (x :: rest) = trimStart rest := List.dropWhile_cons_of_pos white
      rw [now, ih, trimmedParts, trimmedParts, splitOn, if_neg other, shape, List.map_cons, List.map_cons, same]

theorem trimEnd_split (chars : List Char) : ∃ rest, (∀ x ∈ rest, isWhitespace x = true) ∧ chars = trimEnd chars ++ rest := by
  refine ⟨(chars.reverse.takeWhile isWhitespace).reverse, fun x member => List.mem_takeWhile_imp (List.mem_reverse.mp member), ?_⟩
  rw [trimEnd, ← List.reverse_append, List.takeWhile_append_dropWhile, List.reverse_reverse]

theorem trimmedParts_end : trimmedParts (trimEnd chars) = trimmedParts chars := by
  obtain ⟨rest, white, whole⟩ := trimEnd_split chars
  have plain : ',' ∉ rest := fun member => absurd (white ',' member) (by decide)
  obtain ⟨front, last, before, after⟩ := @splitOn_behind ',' (trimEnd chars) rest plain
  rw [← whole] at after
  rw [trimmedParts, trimmedParts, before, after, List.map_append, List.map_append, List.map_singleton, List.map_singleton,
    trimChars_white white]

end

theorem parsePortList_parts (portsStr : String) : parsePortList portsStr = (trimmedParts portsStr.toList).foldlM (fun result part => do
    return result ++ (← parsePortPart (String.ofList part))) [] := by
  rw [parsePortList, trimmedParts, List.foldlM_map]
  simp only [trim_eq, String.toList_ofList]

theorem parsePortList_trim (portsStr : String) : parsePortList (trim portsStr) = parsePortList portsStr := by
  rw [parsePortList_parts, parsePortList_parts, trim_eq, String.toList_ofList, trimChars, trimmedParts_end, trimmedParts_start]

variable {e : Edit} {turn : Turn} {mappings : List IpMapping} {listening : List Listening} {gateway : Option String}

theorem blockedMessage_always {portList : List Nat} {port : Nat} {b : BlockedPort} (member : port ∈ portList) (blocked : b ∈ blockedPorts)
    (always : b.always = true) (same : b.port = port) : blockedMessage listening portList ≠ none := by
  intro nothing
  have none_ := List.findSome?_eq_none_iff.mp (List.findSome?_eq_none_iff.mp nothing port member) b blocked
  rw [if_pos ⟨same.symm, .inl always⟩] at none_
  cases none_

theorem checkPorts_ok (checked : e.checkPorts listening = .ok ()) : ¬NamesProtected e.ports := by
  rintro ⟨port, member, b, blocked, always, same⟩
  unfold Edit.checkPorts at checked
  cases stored : e.ports with
  | none =>
    rw [stored] at member
    cases member
  | some portStr =>
    rw [stored] at checked member
    change port ∈ ((parsePortList portStr).toOption).getD [] at member
    rw [← parsePortList_trim] at member
    dsimp only at checked
    split at checked
    next blank =>
      rw [blank] at member
      cases member
    next =>
      split at checked
      next => cases checked
      next =>
        cases parsed : parsePortList (trim portStr) with
        | error message =>
          rw [parsed] at checked
          cases checked
        | ok portList =>
          rw [parsed] at checked member
          have inside : port ∈ portList := member
          obtain ⟨message, refused⟩ := Option.ne_none_iff_exists'.mp (@blockedMessage_always listening _ _ _ inside blocked always same)
          change (match blockedMessage listening portList with
            | some message => Except.error message
            | none => .ok ()) = Except.ok () at checked
          rw [refused] at checked
          cases checked

theorem checkNew_ports (checked : e.checkNew gateway listening = .ok ()) : e.checkPorts listening = .ok () := by
  cases ports : e.checkPorts listening with
  | ok done => rfl
  | error message =>
    rw [Edit.checkNew, ports] at checked
    repeat' split at checked
    all_goals cases checked

theorem added_guarded {host : Host} {id : String} {t : Tables} {m : IpMapping} (guarded : Guarded mappings)
    (added : (host.addIpMapping listening mappings id e t).1 = .ok m) : Guarded (mappings ++ [m]) := by
  unfold Host.addIpMapping at added
  split at added
  next => cases added
  next checked =>
    split at added
    next => cases added
    next =>
      split at added
      next => cases added
      next =>
        cases added
        intro n member
        rcases List.mem_append.mp member with old | new
        · exact guarded n old
        · rw [List.mem_singleton.mp new]
          exact checkPorts_ok (checkNew_ports checked)

theorem updated_iff {host : Host} {id : String} {t : Tables} {m : IpMapping} : (host.updateIpMapping mappings id e t).1 = .ok m ↔
    e.check = .ok () ∧ ∃ old, mappings.find? (fun m => m.id = id) = some old ∧
      (host.applyMappingRules (e.on old) (host.removeMappingRules old t)).1 = .ok () ∧ m = e.on old := by
  unfold Host.updateIpMapping
  cases found : mappings.find? fun m => m.id = id with
  | none => exact iff_of_false (fun ok => by cases ok) fun ⟨_, old, there, _⟩ => by cases there
  | some old =>
    dsimp only
    cases checked : e.check with
    | error message => exact iff_of_false (fun ok => by cases ok) fun ⟨ok, _⟩ => by cases ok
    | ok done =>
      dsimp only
      cases applied : host.applyMappingRules (e.on old) (host.removeMappingRules old t) with
      | mk reply after =>
        cases reply with
        | error message =>
          refine iff_of_false (fun ok => by cases ok) ?_
          rintro ⟨_, other, there, ok, _⟩
          cases there
          rw [applied] at ok
          cases ok
        | ok done =>
          dsimp only
          constructor
          · intro same
            exact ⟨rfl, old, rfl, by rw [applied], (Except.ok.inj same).symm⟩
          · rintro ⟨_, other, there, _, rfl⟩
            cases there
            rfl

theorem after_ok {saved : List IpMapping} (ends : turn.outcome mappings = .ok saved) (guarded : Guarded mappings)
    (kept : turn.saving = .written → Guarded saved) : Guarded (turn.after mappings) := by
  rw [Turn.after, ends]
  cases saving : turn.saving with
  | written => exact kept saving
  | untouched => exact guarded
  | torn => exact fun m member => absurd member List.not_mem_nil

theorem after_error {message : String} (ends : turn.outcome mappings = .error message) : turn.after mappings = mappings := by
  rw [Turn.after, ends]

theorem updated_guarded_iff {id : String} (asked : turn.request = .update id e) (guarded : Guarded mappings) :
    Guarded (turn.after mappings) ↔ ¬turn.Breaks mappings := by
  have breaks : turn.Breaks mappings ↔ NamesProtected e.ports ∧ turn.saving = .written ∧ e.check = .ok () ∧ ∃ old,
      mappings.find? (fun m => m.id = id) = some old ∧
        (turn.host.applyMappingRules (e.on old) (turn.host.removeMappingRules old turn.tables)).1 = .ok () := by
    rw [Turn.Breaks, asked]
  cases reply : (turn.host.updateIpMapping mappings id e turn.tables).1 with
  | error message =>
    have ends : turn.outcome mappings = .error message := by
      rw [Turn.outcome, asked]
      exact congrArg (Except.map _) reply
    rw [after_error ends, breaks]
    refine iff_of_true guarded ?_
    rintro ⟨-, -, checked, old, found, applied⟩
    rw [updated_iff.mpr ⟨checked, old, found, applied, rfl⟩] at reply
    cases reply
  | ok m =>
    obtain ⟨checked, old, found, applied, rfl⟩ := updated_iff.mp reply
    have ends : turn.outcome mappings = .ok (mappings.set (mappings.findIdx fun m => m.id = id) (e.on old)) := by
      rw [Turn.outcome, asked]
      exact congrArg (Except.map _) reply
    have inside : mappings.findIdx (fun m => m.id = id) < mappings.length :=
      List.findIdx_lt_length_of_exists ⟨old, List.mem_of_find?_eq_some found, by simpa using List.find?_some found⟩
    constructor
    · intro after broken
      obtain ⟨names, written, -⟩ := breaks.mp broken
      rw [Turn.after, ends, written] at after
      exact after (e.on old) (List.mem_set inside _) names
    · intro spared
      refine after_ok ends guarded fun written m member => ?_
      rcases List.mem_or_eq_of_mem_set member with old | rfl
      · exact guarded m old
      · exact fun names => spared (breaks.mpr ⟨names, written, checked, old, found, applied⟩)

theorem after_guarded_iff (guarded : Guarded mappings) : Guarded (turn.after mappings) ↔ ¬turn.Breaks mappings := by
  cases asked : turn.request with
  | update id e => exact updated_guarded_iff asked guarded
  | add id e =>
    have plain : ¬turn.Breaks mappings := by
      rw [Turn.Breaks, asked]
      exact not_false
    refine iff_of_true ?_ plain
    cases reply : (turn.host.addIpMapping turn.listening mappings id e turn.tables).1 with
    | error message =>
      have ends : turn.outcome mappings = .error message := by
        rw [Turn.outcome, asked]
        exact congrArg (Except.map _) reply
      rw [after_error ends]
      exact guarded
    | ok m =>
      have ends : turn.outcome mappings = .ok (mappings ++ [m]) := by
        rw [Turn.outcome, asked]
        exact congrArg (Except.map _) reply
      exact after_ok ends guarded fun _ => added_guarded guarded reply
  | remove id =>
    have plain : ¬turn.Breaks mappings := by
      rw [Turn.Breaks, asked]
      exact not_false
    refine iff_of_true ?_ plain
    cases reply : turn.outcome mappings with
    | error message =>
      rw [after_error reply]
      exact guarded
    | ok saved =>
      refine after_ok reply guarded fun _ m member => guarded m ?_
      rw [Turn.outcome, asked] at reply
      dsimp only [Host.removeIpMapping] at reply
      split at reply
      next => cases reply
      next =>
        cases reply
        exact List.mem_of_mem_eraseP member

theorem serve_concat (done : List Turn) (turn : Turn) : serve (done ++ [turn]) = turn.after (serve done) := by
  rw [serve, List.foldl_append]
  rfl

/-- However requests follow each other: no stored mapping ever names a protected port exactly where
no update does that is not refused for something else. -/
theorem protected_ports_iff (turns : List Turn) :
    (∀ done, done <+: turns → Guarded (serve done)) ↔ ∀ done turn, done ++ [turn] <+: turns → ¬turn.Breaks (serve done) := by
  constructor
  · intro guarded done turn within
    have after := guarded _ within
    rw [serve_concat] at after
    exact (after_guarded_iff (guarded done ((List.prefix_append done [turn]).trans within))).mp after
  · intro spared done
    induction done using List.reverseRecOn with
    | nil => exact fun _ m member => absurd member List.not_mem_nil
    | append_singleton done turn ih =>
      intro within
      rw [serve_concat]
      exact (after_guarded_iff (ih ((List.prefix_append done [turn]).trans within))).mpr (spared done turn within)

def openHost : Host where
  denotes _ := .ok "rule"
  gateway := some "10.100.10.1"
  services := []
  probability _ := "0.5"

def webEdit : Edit := ⟨"203.0.113.5", "10.100.10.5", some "80", none, "tcp"⟩

def sshEdit : Edit := ⟨"203.0.113.5", "10.100.10.5", some "22", none, "tcp"⟩

def webFirst : Turn := ⟨.add "18c5a0" webEdit, openHost, [], fun _ => [], .written⟩

def sshAfter : Turn := ⟨.update "18c5a0" sshEdit, openHost, [], fun _ => [], .written⟩

theorem added_ok {host : Host} {id : String} {t : Tables} (checked : e.checkNew host.gateway listening = .ok ())
    (fresh : mappings.any e.duplicates = false) (taken : host.takes (e.new id) = true) :
    (host.addIpMapping listening mappings id e t).1 = .ok (e.new id) := by
  unfold Host.addIpMapping
  rw [checked, fresh]
  dsimp only
  rw [if_neg Bool.false_ne_true, ← Prod.mk.eta (p := host.applyMappingRules (e.new id) t), applied_ok taken]

/-- A mapping of port 80 is changed to one of port 22. -/
theorem ssh_captured : ¬∀ done, done <+: [webFirst, sshAfter] → Guarded (serve done) := by
  have stored : serve [webFirst] = [webEdit.new "18c5a0"] := by
    have added := @added_ok webEdit [] [] openHost "18c5a0" (fun _ => []) (by decide +kernel) rfl (by decide +kernel)
    have ends : webFirst.outcome [] = .ok [webEdit.new "18c5a0"] := congrArg (Except.map _) added
    change webFirst.after [] = _
    rw [Turn.after, ends]
    rfl
  have updated := @updated_ok openHost (webEdit.new "18c5a0") (fun _ => []) sshEdit [webEdit.new "18c5a0"] rfl (by decide +kernel) (by decide +kernel)
  obtain ⟨checked, old, found, applied, -⟩ := updated_iff.mp updated
  have breaks : sshAfter.Breaks (serve [webFirst]) := by
    rw [stored]
    exact ⟨⟨22, by decide +kernel, ⟨22, "SSH", true⟩, by decide, rfl, rfl⟩, rfl, checked, old, found, applied⟩
  intro guarded
  have before := guarded [webFirst] (List.prefix_append [webFirst] [sshAfter])
  exact (after_guarded_iff before).mp (guarded [webFirst, sshAfter] (List.prefix_refl _)) breaks

end Networking
