import WolfStack.Router.Lines
import WolfStack.Text.Search

/-! Which address a failed login is held against, after `auth/log_monitor.rs` and
`bruteforce.rs`: what the two read out of the lines that the login servers write. -/

namespace Auth
open Router Text

structure Failure where
  ip : List Char
  user : List Char
  source : String

def failedPassword : List Char := "Failed password for ".toList

def invalidUser : List Char := "Invalid user ".toList

def fromMark : List Char := " from ".toList

/-- `strip_prefix(..).unwrap_or(rest)` with the words that mark a name as unknown. -/
def stripInvalid (rest : List Char) : List Char :=
  if "invalid user ".toList <+: rest then rest.drop "invalid user ".toList.length else rest

/-- The two kinds of lines of sshd, with the labels that the caller gives them. The inner
`none` is a line that is given up, where the outer one is a line of neither kind. -/
def sshFailure (password unknown : String) (line : List Char) : Option (Option Failure) :=
  match (splitAround failedPassword line).bind fun parts => splitAround fromMark (stripInvalid parts.2) with
  | some (user, after) => some ((splitWhitespace after).head?.map fun ip => ⟨ip, trimChars user, password⟩)
  | none =>
    match (splitAround invalidUser line).bind fun parts => splitAround fromMark parts.2 with
    | some (user, after) => some ((splitWhitespace after).head?.map fun ip => ⟨ip, trimChars user, unknown⟩)
    | none => none

def contains (line : List Char) (word : String) : Bool := (splitAround word.toList line).isSome

def trimEndMatches (c : Char) (chars : List Char) : List Char := (chars.reverse.dropWhile (· = c)).reverse

def pveSource (line : List Char) : Option String :=
  if contains line "pveproxy" then some "pveproxy"
  else if contains line "pvedaemon" then some "pvedaemon"
  else none

/-- Lines of the two daemons of Proxmox. -/
def pveFailure (line : List Char) : Option Failure :=
  match pveSource line with
  | none => none
  | some source =>
    if contains line "authentication failure" then do
      let rhost ← splitAround "rhost=".toList line
      let ip ← (splitWhitespace rhost.2).head?
      let user := ((splitAround "user=".toList line).bind fun parts => (splitWhitespace parts.2).head?).getD []
      some ⟨trimEndMatches ';' ip, user, source⟩
    else none

/-- `log_monitor::parse_failure`. -/
def parseFailure (line : List Char) : Option Failure :=
  match sshFailure "sshd" "sshd-invalid-user" line with
  | some found => found
  | none => pveFailure line

/-- `bruteforce::parse_ssh_failure`. -/
def parseSshFailure (line : List Char) : Option Failure := (sshFailure "ssh" "ssh" line).join

/-- What the field in brackets names, of whose text the part after the last colon is no part. -/
def bracketed (line : List Char) : Option (List Char) := do
  let parts ← splitAround "[client ".toList line
  let token := parts.2.takeWhile (· ≠ ']')
  let ip := match splitOnce ':' token.reverse with
    | some (_, host) => host.reverse
    | none => token
  if ip = [] then none else some (trimChars ip)

def fieldEnd (c : Char) : Bool := c = ',' || c = ' '

def clientMark : List Char := "client: ".toList

def extractClientIp (line : List Char) : Option (List Char) :=
  match bracketed line with
  | some ip => some ip
  | none =>
    match splitAround clientMark line with
    | some (_, rest) =>
      let ip := trimChars (rest.takeWhile fun c => !fieldEnd c)
      if ip = [] then none else some ip
    | none => none

def trimQuote (chars : List Char) : List Char := ((chars.dropWhile (· = '"')).reverse.dropWhile (· = '"')).reverse

def extractWebUser (line : List Char) : List Char :=
  match (splitAround "user \"".toList line).bind fun parts => splitOnce '"' parts.2 with
  | some (user, _) => user
  | none =>
    match splitAround "user ".toList line with
    | some (_, rest) => trimQuote (rest.takeWhile fun c => c ≠ ':' && c ≠ ' ')
    | none => []

def isApacheAuth (line : List Char) : Bool :=
  contains line "AH01617" || contains line "AH01618" || contains line "AH01797" ||
    (contains line "auth_basic" && contains line "authentication failure")

def isNginxAuth (line : List Char) : Bool :=
  contains line "password mismatch" || contains line "was not found in" ||
    contains line "no user/password was provided for basic authentication"

/-- `bruteforce::parse_web_failure`. -/
def parseWebFailure (line : List Char) : Option Failure :=
  if isApacheAuth line || isNginxAuth line then
    (extractClientIp line).map fun ip => ⟨ip, extractWebUser line, "web-auth"⟩
  else none

/-- An address as the servers write it: one word, with a dot or a colon in it. -/
structure Address where
  text : List Char
  dotted : '.' ∈ text ∨ ':' ∈ text
  plain : ∀ c ∈ text, isWhitespace c = false ∧ c ≠ ',' ∧ c ≠ '[' ∧ c ≠ ']'

/-- What stands before the message: no phrase of a message begins in it. -/
structure Head (phrases : List String) where
  text : List Char
  quiet : ∀ phrase ∈ phrases, Clear phrase.toList text

abbrev JournalHead := Head ["Failed password for ", "Invalid user ", "authentication failure"]

abbrev WebHead := Head ["[client ", "client: "]

inductive SshMessage where
  | failed (unknown : Bool) (user : List Char)
  | invalid (user : List Char)

inductive NginxMessage where
  | mismatch (user : List Char)
  | notFound (user file : List Char)
  | missing

inductive ApacheMessage where
  | mismatch (user uri : List Char)
  | notFound (user uri : List Char)
  | denied (path : List Char)

def SshMessage.ahead : SshMessage → List Char
  | .failed unknown user => failedPassword ++ ((if unknown then "invalid user ".toList else []) ++ user ++ fromMark)
  | .invalid user => invalidUser ++ (user ++ fromMark)

def SshMessage.beyond (port : Nat) : SshMessage → List Char
  | .failed _ _ => " port ".toList ++ Nat.toDigits 10 port ++ " ssh2".toList
  | .invalid _ => " port ".toList ++ Nat.toDigits 10 port

def NginxMessage.text : NginxMessage → List Char
  | .mismatch user => "user \"".toList ++ user ++ "\": password mismatch".toList
  | .notFound user file => "user \"".toList ++ user ++ "\" was not found in \"".toList ++ file ++ "\"".toList
  | .missing => "no user/password was provided for basic authentication".toList

def ApacheMessage.text : ApacheMessage → List Char
  | .mismatch user uri => "AH01617: user ".toList ++ user ++ ": authentication failure for \"".toList ++ uri ++ "\": Password Mismatch".toList
  | .notFound user uri => "AH01618: user ".toList ++ user ++ " not found: ".toList ++ uri
  | .denied path => "AH01797: client denied by server configuration: ".toList ++ path

/-- The lines of the servers. What a web server writes after the address or the message is
the client's as well: the request, the host and the referrer. -/
inductive LogLine where
  | ssh (head : JournalHead) (message : SshMessage) (ip : Address) (port : Nat)
  | nginx (head : WebHead) (message : NginxMessage) (ip : Address) (rest : List Char)
  | apache (head : WebHead) (ip : Address) (port : Nat) (message : ApacheMessage) (rest : List Char)

def LogLine.text : LogLine → List Char
  | .ssh head message ip port => head.text ++ (message.ahead ++ (ip.text ++ message.beyond port))
  | .nginx head message ip rest => head.text ++ (message.text ++ ", ".toList ++ clientMark ++ (ip.text ++ ", server: ".toList ++ rest))
  | .apache head ip port message rest =>
    head.text ++ ("[client ".toList ++ (ip.text ++ ':' :: Nat.toDigits 10 port ++ ']' :: ' ' :: (message.text ++ rest)))

def LogLine.ip : LogLine → Address
  | .ssh _ _ ip _ | .nginx _ _ ip _ | .apache _ ip _ _ _ => ip

/-- The address that the connection came from is the one that is read, by each of the
readers of such lines. -/
def LogLine.Blamed (line : LogLine) : Prop :=
  match line with
  | .ssh .. => (parseFailure line.text).map Failure.ip = some line.ip.text ∧ (parseSshFailure line.text).map Failure.ip = some line.ip.text
  | .nginx .. | .apache .. => (parseWebFailure line.text).map Failure.ip = some line.ip.text

/-- Where the address is looked for: the name and the mark after it, less the words that are
taken for a mark of an unknown user. A name that holds the other phrase is read from there. -/
def SshMessage.read : SshMessage → List Char
  | .failed unknown user => stripInvalid ((if unknown then "invalid user ".toList else []) ++ user ++ fromMark)
  | .invalid user =>
    match splitAround failedPassword (user ++ fromMark) with
    | some (_, rest) => if fromMark <:+: stripInvalid rest then stripInvalid rest else user ++ fromMark
    | none => user ++ fromMark

def Marks (ip read : List Char) : Prop :=
  ∃ user after, splitAround fromMark read = some (user, after) ∧ (splitWhitespace (after ++ ip)).head? = some ip

/-- The first field that names a client names the address: the one in brackets, wherever
in the line it is, and else the first of the others. -/
def LogLine.Fair (line : LogLine) : Prop :=
  match line with
  | .ssh _ message ip _ => Marks ip.text message.read
  | .nginx _ message ip _ =>
    match bracketed line.text with
    | some named => named = ip.text
    | none => ∃ front after, splitAround clientMark (message.text ++ ", ".toList ++ clientMark) = some (front, after) ∧
        trimChars ((after ++ ip.text).takeWhile fun c => !fieldEnd c) = ip.text
  | .apache .. => True

theorem contains_iff {line : List Char} {word : String} : contains line word = true ↔ word.toList <:+: line := by
  rw [contains, Option.isSome_iff_ne_none, ne_eq, splitAround_none_iff, not_not]

theorem whiteParts_cons (c : Char) (chars : List Char) : whiteParts (c :: chars) =
    if isWhitespace c then [] :: whiteParts chars
    else match whiteParts chars with
      | word :: rest => (c :: word) :: rest
      | [] => [[c]] := by
  exact (List.foldr_cons ..).trans rfl

theorem whiteParts_blank (chars rest : List Char) : whiteParts (chars ++ ' ' :: rest) = whiteParts chars ++ whiteParts rest := by
  induction chars with
  | nil => rfl
  | cons c chars ih =>
    have some_ : ∃ word others, whiteParts chars = word :: others := by
      apply List.exists_cons_of_ne_nil
      cases chars with
      | nil => exact List.cons_ne_nil _ _
      | cons d more =>
        rw [whiteParts_cons]
        split
        · exact List.cons_ne_nil _ _
        · split <;> exact List.cons_ne_nil _ _
    obtain ⟨word, others, shape⟩ := some_
    rw [List.cons_append, whiteParts_cons, whiteParts_cons, ih, shape]
    split <;> rfl

theorem whiteParts_flatten (chars : List Char) : (whiteParts chars).flatten = chars.filter fun c => !isWhitespace c := by
  induction chars with
  | nil => rfl
  | cons c chars ih =>
    rw [whiteParts_cons]
    split
    next white => simp [white, ih]
    next dark =>
      rw [List.filter_cons_of_pos (by simpa using dark), ← ih]
      split
      next shape => simp [shape]
      next shape => simp [shape]

namespace Address

variable (ip : Address)

theorem some : ip.text ≠ [] := by
  intro empty
  have dotted := ip.dotted
  rw [empty] at dotted
  simp at dotted

theorem dark : ∀ c ∈ ip.text, isWhitespace c = false := fun c member => (ip.plain c member).1

theorem noBlank : ' ' ∉ ip.text := fun member => absurd (ip.dark ' ' member) (by decide)

theorem cut : ∃ z front back, (z = '.' ∨ z = ':') ∧ ip.text = front ++ z :: back := by
  obtain dot | colon := ip.dotted
  · obtain ⟨front, back, shape⟩ := List.append_of_mem dot
    exact ⟨'.', front, back, .inl rfl, shape⟩
  · obtain ⟨front, back, shape⟩ := List.append_of_mem colon
    exact ⟨':', front, back, .inr rfl, shape⟩

theorem first_word (after rest : List Char) :
    (splitWhitespace (after ++ (ip.text ++ ' ' :: rest))).head? = (splitWhitespace (after ++ ip.text)).head? := by
  obtain ⟨c, others, shape⟩ := List.exists_cons_of_ne_nil ip.some
  have first : c ∈ ip.text := shape ▸ List.mem_cons_self
  have shown : c ∈ (whiteParts (after ++ ip.text)).flatten := by
    rw [whiteParts_flatten, List.mem_filter, ip.dark c first]
    exact ⟨List.mem_append_right _ first, rfl⟩
  obtain ⟨word, member, inside⟩ := List.mem_flatten.mp shown
  have some_ : splitWhitespace (after ++ ip.text) ≠ [] :=
    List.ne_nil_of_mem (List.mem_filter.mpr ⟨member, decide_eq_true (List.ne_nil_of_mem inside)⟩)
  have parts : splitWhitespace (after ++ (ip.text ++ ' ' :: rest)) = splitWhitespace (after ++ ip.text) ++ splitWhitespace rest := by
    change (whiteParts _).filter _ = _
    rw [← List.append_assoc, whiteParts_blank, List.filter_append]
    rfl
  rw [parts, List.head?_append_of_ne_nil _ some_]

end Address

theorem Head.clear {phrases : List String} (head : Head phrases) {phrase : String} (member : phrase ∈ phrases) : Clear phrase.toList head.text :=
  head.quiet phrase member

theorem stripInvalid_append {read : List Char} (ends : "from ".toList <:+ read) (rest : List Char) :
    stripInvalid (read ++ rest) = stripInvalid read ++ rest := by
  by_cases begins : "invalid user ".toList <+: read
  · rw [stripInvalid, if_pos (begins.trans (List.prefix_append _ _)), stripInvalid, if_pos begins,
      List.drop_append_of_le_length begins.length_le]
  · have still : ¬"invalid user ".toList <+: read ++ rest := by
      intro first
      obtain early | late := List.prefix_or_prefix_of_prefix first (List.prefix_append read rest)
      · exact begins early
      · exact absurd (ends.isInfix.trans late.isInfix) (by decide)
    rw [stripInvalid, if_neg still, stripInvalid, if_neg begins]

theorem suffix_cases {mark last part : List Char} (ends : mark <:+ part ++ last) :
    mark <:+ last ∨ ∃ front, front <:+ part ∧ mark = front ++ last := by
  obtain ⟨before, shape⟩ := ends
  obtain ⟨later, rfl, same⟩ | ⟨later, -, same⟩ := List.append_eq_append_iff.mp shape
  · exact .inr ⟨later, List.suffix_append _ _, same⟩
  · exact .inl ⟨later, same.symm⟩

theorem stripInvalid_none {read : List Char} (ends : fromMark <:+ read) (gone : ¬fromMark <:+: stripInvalid read) :
    read = "invalid user from ".toList := by
  rw [stripInvalid] at gone
  split at gone
  next begins =>
    obtain ⟨rest, rfl⟩ := begins
    rw [List.drop_left] at gone
    obtain within | ⟨front, behind, shape⟩ := suffix_cases ends
    · exact absurd within.isInfix gone
    · have short : front <:+ "invalid user ".toList ∧ front <+: fromMark := ⟨behind, ⟨rest, shape.symm⟩⟩
      obtain rfl | rfl : front = [] ∨ front = [' '] := by
        have all : ∀ front ∈ fromMark.inits, front <:+ "invalid user ".toList → front = [] ∨ front = [' '] := by decide
        exact all front ((List.mem_inits _ _).mpr short.2) short.1
      · exact absurd (shape ▸ List.infix_rfl) gone
      · have same : "from ".toList = rest := (List.cons.inj shape).2
        rw [← same]
        rfl
  next => exact absurd ends.isInfix gone

theorem after_password {user front rest : List Char} (found : splitAround failedPassword (user ++ fromMark) = some (front, rest)) :
    "from ".toList <:+ rest := by
  have ends : fromMark <:+ front ++ failedPassword ++ rest := splitAround_shape found ▸ List.suffix_append user fromMark
  obtain within | ⟨before, behind, shape⟩ := suffix_cases ends
  · exact (List.suffix_cons _ _).trans within
  · have start : before <+: fromMark := ⟨rest, shape.symm⟩
    have inside : before <:+ failedPassword :=
      List.suffix_of_suffix_length_le behind (List.suffix_append _ _) (start.length_le.trans (by decide))
    have all : ∀ before ∈ fromMark.inits, before <:+ failedPassword → before = [] ∨ before = [' '] := by decide
    obtain rfl | rfl := all before ((List.mem_inits _ _).mpr start) inside
    · rw [List.nil_append] at shape
      rw [← shape]
      exact List.suffix_cons _ _
    · have same : "from ".toList = rest := (List.cons.inj shape).2
      rw [same]

section

variable (ip : Address) (port : Nat) {needle : List Char}

theorem beyond_shape (message : SshMessage) :
    ∃ more, message.beyond port = " port".toList ++ more ∧ ∀ c ∈ more, c = ' ' ∨ c = 's' ∨ c = 'h' ∨ c.isDigit = true := by
  have digits : ∀ c ∈ Nat.toDigits 10 port, c.isDigit = true := fun c member => Nat.isDigit_of_mem_toDigits (by decide) (by decide) member
  cases message with
  | failed unknown user =>
    refine ⟨' ' :: Nat.toDigits 10 port ++ " ssh2".toList, rfl, ?_⟩
    intro c member
    obtain early | late := List.mem_append.mp member
    · obtain rfl | digit := List.mem_cons.mp early
      · exact .inl rfl
      · exact .inr (.inr (.inr (digits c digit)))
    · have each : " ssh2".toList.all (fun c => c = ' ' || c = 's' || c = 'h' || c.isDigit) = true := by decide
      simpa [or_assoc] using List.all_eq_true.mp each c late
  | invalid user =>
    refine ⟨' ' :: Nat.toDigits 10 port, rfl, ?_⟩
    intro c member
    obtain rfl | digit := List.mem_cons.mp member
    · exact .inl rfl
    · exact .inr (.inr (.inr (digits c digit)))

theorem absent_beyond (message : SshMessage) (head tail : List Char) (shape : needle = head ++ ' ' :: tail) (first : ' ' ∉ head)
    (apart : ¬"port".toList <+: tail ∧ ¬tail <+: "port".toList) (clear : Clear needle " port".toList)
    (letter : ∃ c ∈ needle, ¬(c = ' ' ∨ c = 's' ∨ c = 'h' ∨ c.isDigit = true)) :
    splitAround needle (ip.text ++ message.beyond port) = none := by
  obtain ⟨more, beyond, plain⟩ := beyond_shape port message
  have word : Clear needle (ip.text ++ " port".toList) := clear_word head tail shape first ip.noBlank apart clear
  rw [beyond, ← List.append_assoc]
  apply word.absent
  rw [splitAround_none_iff]
  intro inside
  obtain ⟨c, member, other⟩ := letter
  exact other (plain c (inside.subset member))

theorem splitAround_read (message : SshMessage) (read : List Char) :
    splitAround fromMark (read ++ (ip.text ++ message.beyond port)) =
      (splitAround fromMark read).map fun parts => (parts.1, parts.2 ++ (ip.text ++ message.beyond port)) := by
  cases found : splitAround fromMark read with
  | some parts => exact splitAround_append found _
  | none =>
    obtain ⟨z, front, back, mark, cut⟩ := ip.cut
    obtain ⟨more, beyond, plain⟩ := beyond_shape port message
    have noBlank := ip.noBlank
    rw [cut] at noBlank
    have ahead : Clear fromMark (read ++ front ++ [z]) := by
      apply clear_barrier
      · obtain rfl | rfl := mark <;> decide
      · intro inside
        have within := infix_front " from".toList rfl (fun member => noBlank (List.mem_append_left _ member)) inside
        exact splitAround_none_iff.mp found within
    have behind : Clear fromMark (back ++ " port".toList) :=
      clear_word [] "from ".toList rfl (by simp) (fun member => noBlank (List.mem_append_right _ (List.mem_cons_of_mem _ member)))
        (by decide) (by decide)
    have last : splitAround fromMark more = none := by
      rw [splitAround_none_iff]
      intro inside
      have letter := plain 'm' (inside.subset (by decide))
      revert letter
      decide
    have whole : read ++ (ip.text ++ message.beyond port) = read ++ front ++ [z] ++ (back ++ " port".toList ++ more) := by
      rw [cut, beyond]
      simp
    rw [whole, ahead.absent (behind.absent last)]
    rfl

end

section

variable (password unknown : String) (head : JournalHead) (ip : Address) (port : Nat)

/-- What the readers do with a line of sshd: the name is as it is read, and where nothing
is left to read there is nothing else in the line. -/
def Heard (message : SshMessage) (line : List Char) : Prop :=
  (∃ user after label, splitAround fromMark message.read = some (user, after) ∧
    sshFailure password unknown line =
      some ((splitWhitespace (after ++ (ip.text ++ message.beyond port))).head?.map fun word => ⟨word, trimChars user, label⟩)) ∨
  (splitAround fromMark message.read = none ∧ sshFailure password unknown line = none ∧ contains line "authentication failure" = false)

theorem heard_failed (flag : Bool) (user : List Char) :
    Heard password unknown ip port (.failed flag user) (LogLine.ssh head (.failed flag user) ip port).text := by
  have reads : splitAround failedPassword (LogLine.ssh head (.failed flag user) ip port).text =
      some (head.text, (if flag then "invalid user ".toList else []) ++ user ++ fromMark ++ (ip.text ++ (SshMessage.failed flag user).beyond port)) := by
    have quiet : Clear failedPassword head.text := head.clear (by simp)
    rw [LogLine.text, SshMessage.ahead, List.append_assoc failedPassword]
    exact quiet.found (by decide) _
  have ends : fromMark <:+ (if flag then "invalid user ".toList else []) ++ user ++ fromMark := List.suffix_append _ _
  have goes := splitAround_read ip port (.failed flag user) (SshMessage.failed flag user).read
  have strips := stripInvalid_append ((List.suffix_cons _ _).trans ends) (ip.text ++ (SshMessage.failed flag user).beyond port)
  cases found : splitAround fromMark (SshMessage.failed flag user).read with
  | some parts =>
    obtain ⟨named, after⟩ := parts
    refine .inl ⟨named, after, password, found, ?_⟩
    rw [found, SshMessage.read] at goes
    rw [sshFailure, reads, Option.bind_some, strips, goes]
    rfl
  | none =>
    rw [found, SshMessage.read] at goes
    have name := stripInvalid_none ends (splitAround_none_iff.mp found)
    have whole : (LogLine.ssh head (.failed flag user) ip port).text =
        head.text ++ ("Failed password for invalid user from ".toList ++ (ip.text ++ (SshMessage.failed flag user).beyond port)) := by
      rw [LogLine.text, SshMessage.ahead, name]
      rfl
    have noName : splitAround invalidUser (LogLine.ssh head (.failed flag user) ip port).text = none := by
      have quiet : Clear invalidUser head.text := head.clear (by simp)
      have fixed : Clear invalidUser "Failed password for invalid user from ".toList := clear_of_first rfl (by decide)
      rw [whole]
      apply quiet.absent
      apply fixed.absent
      exact absent_beyond ip port _ "Invalid".toList "user ".toList rfl (by decide) (by decide) (by decide) ⟨'I', by decide, by decide⟩
    refine .inr ⟨found, ?_, ?_⟩
    · rw [sshFailure, reads, Option.bind_some, strips, goes, noName]
      rfl
    · have quiet : Clear "authentication failure".toList head.text := head.clear (by simp)
      have fixed : Clear "authentication failure".toList "Failed password for invalid user from ".toList := by decide +kernel
      rw [contains, Option.isSome_eq_false_iff, Option.isNone_iff_eq_none, whole]
      apply quiet.absent
      apply fixed.absent
      exact absent_beyond ip port _ "authentication".toList "failure".toList rfl (by decide) (by decide) (by decide) ⟨'a', by decide, by decide⟩

theorem heard_invalid (user : List Char) :
    Heard password unknown ip port (.invalid user) (LogLine.ssh head (.invalid user) ip port).text := by
  have whole : (LogLine.ssh head (.invalid user) ip port).text =
      head.text ++ (invalidUser ++ (user ++ fromMark ++ (ip.text ++ (SshMessage.invalid user).beyond port))) := rfl
  have quiet : Clear failedPassword head.text := head.clear (by simp)
  have fixed : Clear failedPassword invalidUser := clear_of_first rfl (by decide)
  obtain ⟨⟨named, after⟩, found⟩ : ∃ parts, splitAround fromMark (user ++ fromMark) = some parts := by
    apply Option.ne_none_iff_exists'.mp
    rw [ne_eq, splitAround_none_iff, not_not]
    exact (List.suffix_append _ _).isInfix
  have goes := splitAround_read ip port (.invalid user) (user ++ fromMark)
  rw [found] at goes
  have second : ((splitAround invalidUser (LogLine.ssh head (.invalid user) ip port).text).bind fun parts => splitAround fromMark parts.2) =
      some (named, after ++ (ip.text ++ (SshMessage.invalid user).beyond port)) := by
    have silent : Clear invalidUser head.text := head.clear (by simp)
    rw [whole, silent.found (by decide), Option.bind_some, goes]
    rfl
  cases phrase : splitAround failedPassword (user ++ fromMark) with
  | none =>
    have name : Clear failedPassword (user ++ fromMark) :=
      clear_mark (splitAround_none_iff.mp phrase) (by decide) (by decide)
    have nowhere : splitAround failedPassword (LogLine.ssh head (.invalid user) ip port).text = none := by
      rw [whole]
      apply quiet.absent
      apply fixed.absent
      apply name.absent
      exact absent_beyond ip port _ "Failed".toList "password for ".toList rfl (by decide) (by decide) (by decide) ⟨'F', by decide, by decide⟩
    refine .inl ⟨named, after, unknown, ?_, ?_⟩
    · rw [SshMessage.read, phrase]
      exact found
    · rw [sshFailure, nowhere, Option.bind_none, second]
  | some parts =>
    obtain ⟨front, rest⟩ := parts
    have first : splitAround failedPassword (LogLine.ssh head (.invalid user) ip port).text =
        some (head.text ++ (invalidUser ++ front), rest ++ (ip.text ++ (SshMessage.invalid user).beyond port)) := by
      rw [whole, quiet.split, fixed.split, splitAround_append phrase]
      rfl
    have strips := stripInvalid_append (after_password phrase) (ip.text ++ (SshMessage.invalid user).beyond port)
    have within := splitAround_read ip port (.invalid user) (stripInvalid rest)
    by_cases marked : fromMark <:+: stripInvalid rest
    · obtain ⟨⟨other, later⟩, shown⟩ : ∃ parts, splitAround fromMark (stripInvalid rest) = some parts := by
        apply Option.ne_none_iff_exists'.mp
        rw [ne_eq, splitAround_none_iff, not_not]
        exact marked
      rw [shown] at within
      refine .inl ⟨other, later, password, ?_, ?_⟩
      · rw [SshMessage.read, phrase]
        dsimp only
        rw [if_pos marked]
        exact shown
      · rw [sshFailure, first, Option.bind_some, strips, within]
        rfl
    · rw [splitAround_none_iff.mpr marked] at within
      refine .inl ⟨named, after, unknown, ?_, ?_⟩
      · rw [SshMessage.read, phrase]
        dsimp only
        rw [if_neg marked]
        exact found
      · rw [sshFailure, first, Option.bind_some, strips, within, second]
        rfl

end

theorem pveFailure_none {line : List Char} (silent : contains line "authentication failure" = false) : pveFailure line = none := by
  rw [pveFailure, silent]
  split <;> rfl

theorem ssh_blamed_iff (head : JournalHead) (message : SshMessage) (ip : Address) (port : Nat) :
    (LogLine.ssh head message ip port).Blamed ↔ Marks ip.text message.read := by
  have heard : ∀ password unknown, Heard password unknown ip port message (LogLine.ssh head message ip port).text := by
    intro password unknown
    cases message with
    | failed flag user => exact heard_failed password unknown head ip port flag user
    | invalid user => exact heard_invalid password unknown head ip port user
  obtain ⟨more, beyond⟩ : ∃ more, message.beyond port = ' ' :: more := by
    obtain ⟨more, shape, -⟩ := beyond_shape port message
    exact ⟨_, shape⟩
  have first : ∀ after label user, ((splitWhitespace (after ++ (ip.text ++ message.beyond port))).head?.map
      fun word => Failure.mk word user label).map Failure.ip = (splitWhitespace (after ++ ip.text)).head? := by
    intro after label user
    rw [beyond, ip.first_word, Option.map_map]
    exact Option.map_id'
  have each : ∀ password unknown, ((sshFailure password unknown (LogLine.ssh head message ip port).text).join).map Failure.ip =
      some ip.text ↔ Marks ip.text message.read := by
    intro password unknown
    obtain ⟨user, after, label, found, same⟩ | ⟨missing, same, -⟩ := heard password unknown
    · rw [same, Option.join_some, first]
      constructor
      · intro right
        exact ⟨user, after, found, right⟩
      · rintro ⟨user, after, other, right⟩
        rw [found, Option.some.injEq, Prod.mk.injEq] at other
        rw [other.2]
        exact right
    · rw [same]
      constructor
      · rintro ⟨⟩
      · rintro ⟨user, after, other, -⟩
        rw [missing] at other
        cases other
  have journal : parseFailure (LogLine.ssh head message ip port).text = (sshFailure "sshd" "sshd-invalid-user" (LogLine.ssh head message ip port).text).join := by
    unfold parseFailure
    obtain ⟨user, after, label, -, same⟩ | ⟨-, same, silent⟩ := heard "sshd" "sshd-invalid-user"
    · rw [same]
      rfl
    · rw [same]
      exact pveFailure_none silent
  change (parseFailure _).map Failure.ip = some ip.text ∧ (parseSshFailure _).map Failure.ip = some ip.text ↔ _
  rw [journal, parseSshFailure, each, each, and_self]

theorem isNginxAuth_line (head : WebHead) (message : NginxMessage) (ip : Address) (rest : List Char) :
    isNginxAuth (LogLine.nginx head message ip rest).text = true := by
  have within : ∀ word : String, word.toList <:+: message.text → contains (LogLine.nginx head message ip rest).text word = true := by
    intro word inside
    apply contains_iff.mpr
    refine inside.trans ⟨head.text, ", ".toList ++ clientMark ++ (ip.text ++ ", server: ".toList ++ rest), ?_⟩
    simp only [LogLine.text, List.append_assoc]
  have parts : ∀ front word back : List Char, word <:+: front ++ word ++ back := fun front word back => ⟨front, back, rfl⟩
  cases message with
  | mismatch user =>
    have shape : (NginxMessage.mismatch user).text = "user \"".toList ++ user ++ "\": ".toList ++ "password mismatch".toList ++ [] := by
      have pieces : "\": password mismatch".toList = "\": ".toList ++ "password mismatch".toList := by decide
      change "user \"".toList ++ user ++ "\": password mismatch".toList = _
      rw [pieces, List.append_nil, ← List.append_assoc]
    have shown := within "password mismatch" (shape ▸ parts _ _ _)
    rw [isNginxAuth, shown]
    rfl
  | notFound user file =>
    have shape : (NginxMessage.notFound user file).text =
        "user \"".toList ++ user ++ "\" ".toList ++ "was not found in".toList ++ (" \"".toList ++ file ++ "\"".toList) := by
      have pieces : "\" was not found in \"".toList = "\" ".toList ++ ("was not found in".toList ++ " \"".toList) := by decide
      change "user \"".toList ++ user ++ "\" was not found in \"".toList ++ file ++ "\"".toList = _
      rw [pieces]
      simp only [List.append_assoc]
    have shown := within "was not found in" (shape ▸ parts _ _ _)
    rw [isNginxAuth, shown, Bool.or_true, Bool.true_or]
  | missing =>
    have shown := within "no user/password was provided for basic authentication" List.infix_rfl
    rw [isNginxAuth, shown, Bool.or_true]

theorem isApacheAuth_line (head : WebHead) (ip : Address) (port : Nat) (message : ApacheMessage) (rest : List Char) :
    isApacheAuth (LogLine.apache head ip port message rest).text = true := by
  have within : ∀ word : String, word.toList <+: message.text → contains (LogLine.apache head ip port message rest).text word = true := by
    intro word begins
    apply contains_iff.mpr
    refine begins.isInfix.trans ⟨head.text ++ ("[client ".toList ++ (ip.text ++ ':' :: Nat.toDigits 10 port ++ [']', ' '])), rest, ?_⟩
    simp only [LogLine.text, List.append_assoc, List.cons_append, List.nil_append]
  cases message with
  | mismatch user uri =>
    have shown := within "AH01617" ⟨_, rfl⟩
    rw [isApacheAuth, shown]
    rfl
  | notFound user uri =>
    have shown := within "AH01618" ⟨_, rfl⟩
    rw [isApacheAuth, shown, Bool.or_true, Bool.true_or, Bool.true_or]
  | denied path =>
    have shown := within "AH01797" ⟨_, rfl⟩
    rw [isApacheAuth, shown, Bool.or_true, Bool.true_or]

theorem trimChars_clean {chars : List Char} (clean : ∀ c ∈ chars, isWhitespace c = false) : trimChars chars = chars := by
  have whole := trim_clean (String.ofList chars) (by simpa using clean)
  rw [trim_eq, String.toList_ofList] at whole
  exact String.ofList_inj.mp whole

theorem takeWhile_stops {p : Char → Bool} {c : Char} (stops : p c = false) (front rest : List Char) :
    (front ++ c :: rest).takeWhile p = front.takeWhile p := by
  rw [List.takeWhile_append, List.takeWhile_cons_of_neg (by simp [stops]), List.append_nil]
  split
  next all => exact (List.takeWhile_prefix p).eq_of_length all |>.symm
  next => rfl

theorem apache_blamed (head : WebHead) (ip : Address) (port : Nat) (message : ApacheMessage) (rest : List Char) :
    (LogLine.apache head ip port message rest).Blamed := by
  have digits : ∀ c ∈ Nat.toDigits 10 port, c.isDigit = true := fun c member => Nat.isDigit_of_mem_toDigits (by decide) (by decide) member
  have reads : splitAround "[client ".toList (LogLine.apache head ip port message rest).text =
      some (head.text, ip.text ++ ':' :: Nat.toDigits 10 port ++ ']' :: ' ' :: (message.text ++ rest)) :=
    (head.clear (by simp)).found (by decide) _
  have token : (ip.text ++ ':' :: Nat.toDigits 10 port ++ ']' :: ' ' :: (message.text ++ rest)).takeWhile (· ≠ ']') =
      ip.text ++ ':' :: Nat.toDigits 10 port := by
    rw [takeWhile_stops (by simp), List.takeWhile_eq_self_iff]
    intro c member
    apply decide_eq_true
    rintro rfl
    obtain early | colon | late := by simpa only [List.mem_append, List.mem_cons] using member
    · exact (ip.plain _ early).2.2.2 rfl
    · cases colon
    · exact absurd (digits _ late) (by decide)
  have host : splitOnce ':' (ip.text ++ ':' :: Nat.toDigits 10 port).reverse = some ((Nat.toDigits 10 port).reverse, ip.text.reverse) := by
    rw [List.reverse_append, List.reverse_cons, List.append_assoc, List.singleton_append]
    apply splitOnce_append
    intro member
    exact absurd (digits _ (List.mem_reverse.mp member)) (by decide)
  have field : bracketed (LogLine.apache head ip port message rest).text = some ip.text := by
    unfold bracketed
    rw [reads]
    dsimp only [Option.bind_eq_bind, Option.bind_some]
    rw [token, host]
    simp only [List.reverse_reverse]
    rw [if_neg ip.some, trimChars_clean ip.dark]
  have known := isApacheAuth_line head ip port message rest
  change (parseWebFailure _).map Failure.ip = some ip.text
  rw [parseWebFailure, known, Bool.true_or, if_pos rfl, extractClientIp, field]
  rfl

theorem nginx_blamed_iff (head : WebHead) (message : NginxMessage) (ip : Address) (rest : List Char) :
    (LogLine.nginx head message ip rest).Blamed ↔ (LogLine.nginx head message ip rest).Fair := by
  have known := isNginxAuth_line head message ip rest
  have reads : (parseWebFailure (LogLine.nginx head message ip rest).text).map Failure.ip = extractClientIp (LogLine.nginx head message ip rest).text := by
    rw [parseWebFailure, known, Bool.or_true, if_pos rfl, Option.map_map]
    exact Option.map_id'
  change (parseWebFailure _).map Failure.ip = some ip.text ↔ _
  rw [reads, extractClientIp, LogLine.Fair]
  cases found : bracketed (LogLine.nginx head message ip rest).text with
  | some named => exact Option.some_inj
  | none =>
    dsimp only
    obtain ⟨⟨front, after⟩, field⟩ : ∃ parts, splitAround clientMark (message.text ++ ", ".toList ++ clientMark) = some parts := by
      apply Option.ne_none_iff_exists'.mp
      rw [ne_eq, splitAround_none_iff, not_not]
      exact (List.suffix_append _ _).isInfix
    have quiet : Clear clientMark head.text := head.clear (by simp)
    have whole : splitAround clientMark (LogLine.nginx head message ip rest).text =
        some (head.text ++ front, after ++ (ip.text ++ ", server: ".toList ++ rest)) := by
      rw [LogLine.text, quiet.split, splitAround_append field]
      rfl
    have token : (after ++ (ip.text ++ ", server: ".toList ++ rest)).takeWhile (fun c => !fieldEnd c) =
        (after ++ ip.text).takeWhile fun c => !fieldEnd c := by
      have comma : ", server: ".toList ++ rest = ',' :: (" server: ".toList ++ rest) := rfl
      rw [List.append_assoc, comma, ← List.append_assoc]
      exact takeWhile_stops (by decide) _ _
    rw [whole]
    dsimp only
    rw [token]
    constructor
    · intro right
      refine ⟨front, after, field, ?_⟩
      split at right
      · cases right
      · exact Option.some.inj right
    · rintro ⟨_, _, other, right⟩
      cases field.symm.trans other
      rw [right, if_neg ip.some]

/-- Whoever connects is blamed for it as long as what the client chose names nobody else
before the server does. -/
theorem LogLine.blamed_iff (line : LogLine) : line.Blamed ↔ line.Fair := by
  cases line with
  | ssh head message ip port => exact ssh_blamed_iff head message ip port
  | nginx head message ip rest => exact nginx_blamed_iff head message ip rest
  | apache head ip port message rest => exact iff_of_true (apache_blamed head ip port message rest) trivial

def visitor : Address where
  text := "203.0.113.9".toList
  dotted := .inl (by decide)
  plain := by
    have all : "203.0.113.9".toList.all (fun c => !isWhitespace c && c != ',' && c != '[' && c != ']') = true := by decide
    intro c member
    have each := List.all_eq_true.mp all c member
    simp only [Bool.and_eq_true, Bool.not_eq_true', bne_iff_ne] at each
    exact ⟨each.1.1.1, each.1.1.2, each.1.2, each.2⟩

theorem quiet_sshd : ∀ phrase ∈ ["Failed password for ", "Invalid user ", "authentication failure"], Clear phrase.toList "sshd[7]: ".toList := by
  have apart : ∀ phrase ∈ ["Failed password for ", "Invalid user ", "authentication failure"],
      phrase.toList.head? = some 'F' ∨ phrase.toList.head? = some 'I' ∨ phrase.toList.head? = some 'a' := by decide
  intro phrase member
  obtain first | first | first := apart phrase member <;> exact clear_of_first first (by decide)

def slander : LogLine :=
  .ssh ⟨"sshd[7]: ".toList, quiet_sshd⟩ (.failed true "x from 192.0.2.1".toList) visitor 22

theorem slander_blames : String.ofList slander.text = "sshd[7]: Failed password for invalid user x from 192.0.2.1 from 203.0.113.9 port 22 ssh2" ∧
    (parseFailure slander.text).map Failure.ip = some "192.0.2.1".toList ∧ ¬slander.Blamed := by
  have read : (parseFailure slander.text).map Failure.ip = some "192.0.2.1".toList := by decide +kernel
  refine ⟨by decide +kernel, read, ?_⟩
  rintro ⟨right, -⟩
  rw [read] at right
  exact absurd right (by decide)

end Auth
