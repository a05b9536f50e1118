import WolfStack.Netfilter.Rules
import WolfStack.Text.Slices

/-! How a table is read from the lines that describe it. Lines are cut into words at blanks, and the
words of a rule are options with their values. -/

namespace Netfilter
open Text

inductive Mode where
  | plain
  | quoted
  | escaped
deriving DecidableEq, Repr

def isBlank (c : Char) : Bool := c = ' ' || c = '\t' || c = '\n'

/-- A closing quote ends a word, as a blank does outside quotes. -/
def wordsFrom : Mode → List Char → List Char → List (List Char)
  | _, word, [] => if word = [] then [] else [word]
  | .plain, word, c :: rest =>
    if c = '"' then wordsFrom .quoted word rest
    else if isBlank c then (if word = [] then wordsFrom .plain [] rest else word :: wordsFrom .plain [] rest)
    else wordsFrom .plain (word ++ [c]) rest
  | .quoted, word, c :: rest =>
    if c = '\\' then wordsFrom .escaped word rest
    else if c = '"' then word :: wordsFrom .plain [] rest
    else wordsFrom .quoted (word ++ [c]) rest
  | .escaped, word, c :: rest => wordsFrom .quoted (word ++ [c]) rest

def words (chars : List Char) : List (List Char) := wordsFrom .plain [] chars

def bareChar (c : Char) : Bool := !isBlank c && c != '"'

def Verbatim (word : List Char) : Prop := word ≠ [] ∧ word.all bareChar = true

instance (word : List Char) : Decidable (Verbatim word) := inferInstanceAs (Decidable (_ ∧ _))

theorem wordsFrom_bare {word : List Char} (bare : word.all bareChar = true) (before rest : List Char) :
    wordsFrom .plain before (word ++ rest) = wordsFrom .plain (before ++ word) rest := by
  induction word generalizing before with
  | nil => rw [List.append_nil, List.nil_append]
  | cons c word ih =>
    obtain ⟨first, later⟩ := Bool.and_eq_true_iff.mp ((List.all_cons).symm.trans bare)
    obtain ⟨dark, unquoted⟩ := Bool.and_eq_true_iff.mp first
    rw [List.cons_append, wordsFrom, if_neg (by simpa using unquoted), if_neg (by simpa using dark), ih later,
      List.append_assoc, List.singleton_append]

theorem wordsFrom_quoted {text : List Char} (plain : ∀ c ∈ text, c ≠ '"' ∧ c ≠ '\\') (before rest : List Char) :
    wordsFrom .quoted before (text ++ '"' :: rest) = (before ++ text) :: wordsFrom .plain [] rest := by
  induction text generalizing before with
  | nil => rw [List.nil_append, wordsFrom, if_neg (by decide), if_pos rfl, List.append_nil]
  | cons c text ih =>
    obtain ⟨unquoted, unescaped⟩ := plain c List.mem_cons_self
    rw [List.cons_append, wordsFrom, if_neg unescaped, if_neg unquoted, ih fun d member => plain d (List.mem_cons_of_mem _ member),
      List.append_assoc, List.singleton_append]

def Holds (part : List Char) (ws : List (List Char)) : Prop :=
  '\n' ∉ part ∧ words part = ws ∧ ∀ rest, words (part ++ ' ' :: rest) = ws ++ words rest

theorem wordsFrom_blank {before : List Char} (some_ : before ≠ []) (rest : List Char) :
    wordsFrom .plain before (' ' :: rest) = before :: words rest := by
  rw [wordsFrom, if_neg (by decide), if_pos (by decide), if_neg some_, words]

theorem Verbatim.unbroken {word : List Char} (bare : Verbatim word) : '\n' ∉ word := by
  intro member
  have impossible : bareChar '\n' = true := List.all_eq_true.mp bare.2 _ member
  cases impossible

theorem Holds.bare {word : List Char} (bare : Verbatim word) : Holds word [word] := by
  refine ⟨bare.unbroken, ?_, ?_⟩
  · have last := wordsFrom_bare bare.2 [] []
    rw [List.append_nil] at last
    rw [words, last, List.nil_append, wordsFrom, if_neg bare.1]
  · intro rest
    rw [words, wordsFrom_bare bare.2, List.nil_append, wordsFrom_blank bare.1]
    rfl

theorem Holds.quoted {text : List Char} (plain : ∀ c ∈ text, c ≠ '"' ∧ c ≠ '\\') (unbroken : '\n' ∉ text) :
    Holds ('"' :: text ++ ['"']) [text] := by
  have opened : ∀ rest, words ('"' :: text ++ '"' :: rest) = text :: words rest := by
    intro rest
    rw [words, List.cons_append, wordsFrom, if_pos rfl, wordsFrom_quoted plain]
    rfl
  refine ⟨by simpa using unbroken, opened [], fun rest => ?_⟩
  have gap : words (' ' :: rest) = words rest := by
    rw [words, wordsFrom, if_neg (by decide), if_pos (by decide), if_pos rfl, words]
  rw [List.append_assoc, List.singleton_append, opened, gap]
  rfl

theorem Holds.beside {first second : List Char} {ws vs : List (List Char)} (one : Holds first ws) (two : Holds second vs) :
    Holds (first ++ ' ' :: second) (ws ++ vs) := by
  refine ⟨?_, ?_, ?_⟩
  · simp [one.1, two.1]
  · rw [one.2.2, two.2.1]
  · intro rest
    rw [List.append_assoc, List.cons_append, one.2.2, two.2.2, List.append_assoc]

/-! ### Values -/

/-- A number is written in decimal, without leading zeros. -/
def readNumber (most : Nat) (chars : List Char) : Option Nat :=
  if chars.all Char.isDigit && (chars.head? != some '0' || chars.length = 1) && chars != [] && Nat.ofDigitChars 10 chars 0 ≤ most then
    some (Nat.ofDigitChars 10 chars 0)
  else none

theorem readNumber_digits {most n : Nat} {chars : List Char} (read : readNumber most chars = some n) :
    chars ≠ [] ∧ chars.all Char.isDigit = true := by
  rw [readNumber, Option.ite_none_right_eq_some] at read
  simp only [Bool.and_eq_true] at read
  exact ⟨by simpa using read.1.1.2, read.1.1.1.1⟩

theorem not_mem_digits {chars : List Char} {c : Char} (digits : chars.all Char.isDigit = true) (other : c.isDigit = false) : c ∉ chars := by
  intro member
  rw [List.all_eq_true.mp digits c member] at other
  cases other

def readAddress (chars : List Char) : Option (BitVec 32) :=
  match (chars.splitOn '.').mapM (readNumber 255) with
  | some [a, b, c, d] => some (BitVec.ofNat 32 (((a * 256 + b) * 256 + c) * 256 + d))
  | _ => none

def readNetwork (chars : List Char) : Option Network :=
  match chars.splitOn '/' with
  | [address] => (readAddress address).map fun base => ⟨base, 32⟩
  | [address, length] => (readAddress address).bind fun base => (readNumber 32 length).map fun length => ⟨base, length⟩
  | _ => none

/-- A port, or the first and the last of several with a separator between them. -/
def readPorts (separator : Char) (chars : List Char) : Option (Nat × Nat) :=
  match chars.splitOn separator with
  | [port] => (readNumber 65535 port).map fun port => (port, port)
  | [low, high] => (readNumber 65535 low).bind fun low => (readNumber 65535 high).bind fun high =>
    if low ≤ high then some (low, high) else none
  | _ => none

theorem bare_digit {c : Char} (digit : c.isDigit = true) : bareChar c = true := by
  have range : 48 ≤ c.toNat ∧ c.toNat ≤ 57 := Char.isDigit_iff_toNat.mp digit
  have dark : ∀ d : Char, d.toNat < 48 → c ≠ d := by
    rintro d low rfl
    omega
  simp [bareChar, isBlank, dark]

theorem mem_joined {separator c : Char} {parts : List (List Char)} (member : c ∈ [separator].intercalate parts) :
    c = separator ∨ ∃ part ∈ parts, c ∈ part := by
  induction parts with
  | nil => cases member
  | cons part rest ih =>
    cases rest with
    | nil => exact .inr ⟨part, List.mem_cons_self, by simpa [List.intercalate] using member⟩
    | cons next others =>
      have shape : [separator].intercalate (part :: next :: others) = part ++ separator :: [separator].intercalate (next :: others) := by
        simp [List.intercalate]
      rw [shape] at member
      rcases List.mem_append.mp member with here | later
      · exact .inr ⟨part, List.mem_cons_self, here⟩
      · rcases List.mem_cons.mp later with rfl | behind
        · exact .inl rfl
        · rcases ih behind with rfl | ⟨inside, among, within⟩
          · exact .inl rfl
          · exact .inr ⟨inside, List.mem_cons_of_mem _ among, within⟩

theorem mapM_each {α β : Type} {f : α → Option β} {xs : List α} {ys : List β} (read : xs.mapM f = some ys) :
    ∀ x ∈ xs, ∃ y, f x = some y := by
  induction xs generalizing ys with
  | nil => exact nofun
  | cons x xs ih =>
    rw [List.mapM_cons, Option.bind_eq_bind, Option.bind_eq_some_iff] at read
    obtain ⟨y, first, more⟩ := read
    rw [Option.bind_eq_bind, Option.bind_eq_some_iff] at more
    obtain ⟨rest, later, -⟩ := more
    exact List.forall_mem_cons.mpr ⟨⟨y, first⟩, ih later⟩

theorem readAddress_chars {chars : List Char} {a : BitVec 32} (read : readAddress chars = some a) :
    chars ≠ [] ∧ ∀ c ∈ chars, c.isDigit = true ∨ c = '.' := by
  rw [readAddress] at read
  split at read
  next first second third fourth parts =>
    refine ⟨?_, fun c member => ?_⟩
    · rintro rfl
      cases parts
    · have joined : ['.'].intercalate (chars.splitOn '.') = chars := List.intercalate_splitOn '.'
      rcases mem_joined (joined.symm ▸ member) with dot | ⟨part, among, inside⟩
      · exact .inr dot
      · obtain ⟨n, number⟩ := mapM_each parts part among
        exact .inl (List.all_eq_true.mp (readNumber_digits number).2 c inside)
  next => cases read

theorem address_bare {chars : List Char} {a : BitVec 32} (read : readAddress chars = some a) : Verbatim chars := by
  obtain ⟨some_, all⟩ := readAddress_chars read
  refine ⟨some_, List.all_eq_true.mpr fun c member => ?_⟩
  rcases all c member with digit | rfl
  · exact bare_digit digit
  · rfl

theorem address_unsplit {chars : List Char} {a : BitVec 32} (read : readAddress chars = some a) : '/' ∉ chars := by
  intro member
  rcases (readAddress_chars read).2 _ member with digit | dot
  · cases digit
  · cases dot

theorem readNetwork_host {chars : List Char} {a : BitVec 32} (read : readAddress chars = some a) :
    readNetwork (chars ++ "/32".toList) = some ⟨a, 32⟩ := by
  have cut : (chars ++ "/32".toList).splitOn '/' = [chars, "32".toList] := by
    have joined : chars ++ "/32".toList = ['/'].intercalate [chars, "32".toList] := by simp [List.intercalate]
    rw [joined]
    refine List.splitOn_intercalate _ ?_ (List.cons_ne_nil _ _)
    exact List.forall_mem_cons.mpr ⟨address_unsplit read, List.forall_mem_singleton.mpr (by decide)⟩
  have number : readNumber 32 "32".toList = some 32 := by decide
  rw [readNetwork, cut]
  dsimp only
  rw [read, number]
  rfl

theorem network_bare {chars : List Char} {n : Network} (read : readNetwork chars = some n) : Verbatim chars := by
  have joined : ['/'].intercalate (chars.splitOn '/') = chars := List.intercalate_splitOn '/'
  rw [readNetwork] at read
  split at read
  next address parts =>
    rw [parts] at joined
    obtain ⟨base, whole, -⟩ := Option.map_eq_some_iff.mp read
    have same : address = chars := by simpa [List.intercalate] using joined
    exact same ▸ address_bare whole
  next address length parts =>
    rw [parts] at joined
    obtain ⟨base, first, more⟩ := Option.bind_eq_some_iff.mp read
    obtain ⟨bits, second, -⟩ := Option.map_eq_some_iff.mp more
    have shape : address ++ '/' :: length = chars := by simpa [List.intercalate] using joined
    have digits := (readNumber_digits second).2
    refine ⟨fun none_ => ?_, ?_⟩
    · rw [none_] at shape
      cases address <;> cases shape
    · rw [← shape, List.all_append, List.all_cons, (address_bare first).2, Bool.true_and]
      exact Bool.and_eq_true_iff.mpr ⟨rfl, List.all_eq_true.mpr fun c member => bare_digit (List.all_eq_true.mp digits c member)⟩
  next => cases read

theorem readPorts_replaced {separator : Char} {chars : List Char} {range : Nat × Nat} (other : separator.isDigit = false)
    (read : readPorts separator chars = some range) :
    readPorts ':' (chars.map fun c => if c = separator then ':' else c) = some range ∧
      Verbatim (chars.map fun c => if c = separator then ':' else c) := by
  have same : ∀ {part : List Char}, part.all Char.isDigit = true → part.map (fun c => if c = separator then ':' else c) = part := by
    intro part digits
    refine (List.map_congr_left fun c member => if_neg ?_).trans (List.map_id part)
    rintro rfl
    exact not_mem_digits digits other member
  have joined : [separator].intercalate (chars.splitOn separator) = chars := List.intercalate_splitOn separator
  rw [readPorts] at read
  split at read
  next port parts =>
    rw [parts] at joined
    obtain ⟨n, number, whole⟩ := Option.map_eq_some_iff.mp read
    obtain ⟨some_, digits⟩ := readNumber_digits number
    have shape : port = chars := by simpa [List.intercalate] using joined
    have cut : port.splitOn ':' = [port] := by
      have alone : ([':'].intercalate [port]).splitOn ':' = [port] :=
        List.splitOn_intercalate ':' (List.forall_mem_singleton.mpr (not_mem_digits digits rfl)) (List.cons_ne_nil _ _)
      simpa [List.intercalate] using alone
    rw [← shape, same digits]
    refine ⟨?_, some_, List.all_eq_true.mpr fun c member => bare_digit (List.all_eq_true.mp digits c member)⟩
    rw [readPorts, cut]
    exact read
  next low high parts =>
    rw [parts] at joined
    obtain ⟨first, one, more⟩ := Option.bind_eq_some_iff.mp read
    obtain ⟨last, two, -⟩ := Option.bind_eq_some_iff.mp more
    obtain ⟨some_, digits⟩ := readNumber_digits one
    obtain ⟨-, also⟩ := readNumber_digits two
    have shape : low ++ separator :: high = chars := by simpa [List.intercalate] using joined
    have written : chars.map (fun c => if c = separator then ':' else c) = low ++ ':' :: high := by
      rw [← shape, List.map_append, List.map_cons, same digits, same also, if_pos rfl]
    have cut : (low ++ ':' :: high).splitOn ':' = [low, high] := by
      have both : ([':'].intercalate [low, high]).splitOn ':' = [low, high] := List.splitOn_intercalate ':'
        (List.forall_mem_cons.mpr ⟨not_mem_digits digits rfl, List.forall_mem_singleton.mpr (not_mem_digits also rfl)⟩) (List.cons_ne_nil _ _)
      simpa [List.intercalate] using both
    rw [written]
    refine ⟨?_, fun none_ => ?_, ?_⟩
    · rw [readPorts, cut]
      exact read
    · cases low <;> cases none_
    · rw [List.all_append, List.all_cons]
      have bare : ∀ {part : List Char}, part.all Char.isDigit = true → part.all bareChar = true := fun digits =>
        List.all_eq_true.mpr fun c member => bare_digit (List.all_eq_true.mp digits c member)
      rw [bare digits, bare also]
      rfl
  next => cases read

/-- Names of interfaces are short. -/
def readInterface (chars : List Char) : Option (List Char) := if chars ≠ [] ∧ byteLen chars < 16 then some chars else none

def readProto (chars : List Char) : Option Proto :=
  if chars = "tcp".toList then some .tcp
  else if chars = "udp".toList then some .udp
  else if chars = "icmp".toList then some .icmp
  else none

def readState (chars : List Char) : Option State :=
  if chars = "NEW".toList then some .new
  else if chars = "ESTABLISHED".toList then some .established
  else if chars = "RELATED".toList then some .related
  else if chars = "INVALID".toList then some .invalid
  else none

def readExtension (chars : List Char) : Option Extension :=
  if chars = "conntrack".toList then some .conntrack
  else if chars = "set".toList then some .set
  else none

def readEnd (chars : List Char) : Option End :=
  if chars = "src".toList then some .source
  else if chars = "dst".toList then some .destination
  else none

/-- What is no target of its own is the name of a chain. -/
def readTarget (chars : List Char) : Target :=
  if chars = "ACCEPT".toList then .accept
  else if chars = "DROP".toList then .drop
  else if chars = "REJECT".toList then .reject
  else if chars = "RETURN".toList then .leave
  else if chars = "NFLOG".toList then .nflog
  else .chain chars

def flags : List (List Char × Flag) :=
  [("-p".toList, .proto), ("-s".toList, .address .source), ("-d".toList, .address .destination),
    ("-i".toList, .interface .source), ("-o".toList, .interface .destination),
    ("--sport".toList, .port .source), ("--dport".toList, .port .destination), ("-m".toList, .load),
    ("--ctstate".toList, .ctstate), ("--match-set".toList, .matchSet), ("-j".toList, .jump),
    ("--nflog-group".toList, .nflogGroup), ("--nflog-prefix".toList, .nflogPrefix)]

/-- What an option is with its value. The members of sets are named with one word more. -/
def Flag.read (value : List Char) : Flag → Option Opt
  | proto => (readProto value).map .proto
  | address e => (readNetwork value).map (.address e)
  | interface e => (readInterface value).map (.interface e)
  | port e => (readPorts ':' value).map fun range => .port e range.1 range.2
  | load => (readExtension value).map .load
  | ctstate => ((value.splitOn ',').mapM readState).map .ctstate
  | matchSet => none
  | jump => some (.jump (readTarget value))
  | nflogGroup => (readNumber 65535 value).map .nflogGroup
  | nflogPrefix => if byteLen value < 64 then some (.nflogPrefix value) else none

def readOptions : List (List Char) → Option Rule
  | [] => some []
  | [_] => none
  | word :: value :: rest =>
    match flags.lookup word with
    | none => none
    | some .matchSet => match rest with
      | side :: rest => (readEnd side).bind fun e => (readOptions rest).map (.matchSet value e :: ·)
      | [] => none
    | some flag => (flag.read value).bind fun o => (readOptions rest).map (o :: ·)

theorem readOptions_cons {word value : List Char} {flag : Flag} {o : Opt} (known : flags.lookup word = some flag)
    (read : flag.read value = some o) (rest : List (List Char)) :
    readOptions (word :: value :: rest) = (readOptions rest).map (o :: ·) := by
  rw [readOptions.eq_def]
  dsimp only
  rw [known]
  cases flag with
  | matchSet => cases read
  | _ => dsimp only; rw [read, Option.bind_some]

def Spells (part : List Char) (os : Rule) : Prop :=
  ∃ ws, Holds part ws ∧ ∀ rest, readOptions (ws ++ rest) = (readOptions rest).map (os ++ ·)

namespace Spells

theorem option {word value : List Char} {flag : Flag} {o : Opt} (known : flags.lookup word = some flag) (read : flag.read value = some o)
    (name : Verbatim word) (text : Verbatim value) : Spells (word ++ ' ' :: value) [o] :=
  ⟨[word, value], (Holds.bare name).beside (.bare text), readOptions_cons known read⟩

theorem quoted {word value : List Char} {flag : Flag} {o : Opt} (known : flags.lookup word = some flag) (read : flag.read value = some o)
    (name : Verbatim word) (text : ∀ c ∈ value, c ≠ '"' ∧ c ≠ '\\') (unbroken : '\n' ∉ value) :
    Spells (word ++ ' ' :: ('"' :: value ++ ['"'])) [o] :=
  ⟨[word, value], (Holds.bare name).beside (.quoted text unbroken), readOptions_cons known read⟩

theorem beside {first second : List Char} {os rs : Rule} (one : Spells first os) (two : Spells second rs) :
    Spells (first ++ ' ' :: second) (os ++ rs) := by
  obtain ⟨ws, reads, options⟩ := one
  obtain ⟨vs, reads', options'⟩ := two
  refine ⟨ws ++ vs, reads.beside reads', fun rest => ?_⟩
  rw [List.append_assoc, options, options', Option.map_map]
  congr 1
  funext after
  exact (List.append_assoc os rs after).symm

end Spells

inductive Spelled : List (List Char) → Rule → Prop where
  | nil : Spelled [] []
  | cons {part : List Char} {parts : List (List Char)} {os rs : Rule} (first : Spells part os) (later : Spelled parts rs) :
    Spelled (part :: parts) (os ++ rs)

namespace Spelled

theorem one {part : List Char} {os : Rule} (spells : Spells part os) : Spelled [part] os := by
  have alone := cons spells nil
  rwa [List.append_nil] at alone

theorem append {parts more : List (List Char)} {os rs : Rule} (one : Spelled parts os) (two : Spelled more rs) :
    Spelled (parts ++ more) (os ++ rs) := by
  induction one with
  | nil => exact two
  | cons first _ ih =>
    rw [List.append_assoc]
    exact cons first ih

theorem joined {parts : List (List Char)} {os : Rule} (spelled : Spelled parts os) (some_ : parts ≠ []) :
    Spells ([' '].intercalate parts) os := by
  induction spelled with
  | nil => exact absurd rfl some_
  | @cons part parts os rs first later ih =>
    cases parts with
    | nil =>
      cases later
      simpa [List.intercalate] using first
    | cons next parts =>
      have shape : [' '].intercalate (part :: next :: parts) = part ++ ' ' :: [' '].intercalate (next :: parts) := by
        simp [List.intercalate]
      rw [shape]
      exact first.beside (ih (List.cons_ne_nil _ _))

end Spelled

inductive Line where
  | comment
  | table (name : List Char)
  | chain (name : List Char)
  | append (chain : List Char) (rule : Rule)
  | commit
deriving DecidableEq, Repr

def readRule (line : List Char) : Option Line :=
  match words line with
  | word :: chain :: options => if word = "-A".toList then
      (readOptions options).bind fun rule => if rule.sound then some (.append chain rule) else none
    else none
  | _ => none

/-- A chain is declared with a policy, of which it has none, and with its counters. -/
def readLine (line : List Char) : Option Line :=
  match line with
  | [] | '#' :: _ => some .comment
  | '*' :: name => some (.table name)
  | ':' :: rest => match words rest with
    | [name, policy, _] => if policy = "-".toList then some (.chain name) else none
    | _ => none
  | _ => if line = "COMMIT".toList then some .commit else readRule line

def IsLine (chars : List Char) (line : Line) : Prop := '\n' ∉ chars ∧ readLine chars = some line

instance (chars : List Char) (line : Line) : Decidable (IsLine chars line) := inferInstanceAs (Decidable (_ ∧ _))

theorem isLine_comment {chars : List Char} (unbroken : '\n' ∉ chars) : IsLine ('#' :: chars) .comment :=
  ⟨by simpa using unbroken, rfl⟩

theorem isLine_rule {chain : List Char} {parts : List (List Char)} {rule : Rule} (bare : Verbatim chain) (spelled : Spelled parts rule)
    (some_ : parts ≠ []) (sound : rule.sound = true) :
    IsLine ([' '].intercalate (("-A ".toList ++ chain) :: parts)) (.append chain rule) := by
  obtain ⟨ws, reads, options⟩ := spelled.joined some_
  obtain ⟨part, others, rfl⟩ := List.exists_cons_of_ne_nil some_
  have shape : [' '].intercalate (("-A ".toList ++ chain) :: part :: others) =
      ("-A".toList ++ ' ' :: chain) ++ ' ' :: [' '].intercalate (part :: others) := by
    simp [List.intercalate]
  have whole : Holds ([' '].intercalate (("-A ".toList ++ chain) :: part :: others)) ("-A".toList :: chain :: ws) := by
    rw [shape]
    exact ((Holds.bare (by decide)).beside (.bare bare)).beside reads
  have all := options []
  rw [List.append_nil] at all
  have read : readRule ([' '].intercalate (("-A ".toList ++ chain) :: part :: others)) = some (.append chain rule) := by
    rw [readRule, whole.2.1]
    simp [all, readOptions, sound]
  refine ⟨whole.1, ?_⟩
  rw [← read, shape]
  rfl

namespace Table

/-- A rule is appended to a chain that has been declared, and leads to none that has not. -/
def takes (declared : List (List Char)) (chain : List Char) (rule : Rule) : Bool :=
  chain ∈ declared && match rule.target with
  | some (.chain name) => name ∈ declared
  | _ => true

/-- Whether a chain that is declared again keeps its rules is different from version to version. -/
def step (t : Table) : Line → Option Table
  | .comment => some t
  | .chain name => if name ∈ t.declared then none else some ⟨t.declared ++ [name], t.appended⟩
  | .append chain rule => if takes t.declared chain rule then some ⟨t.declared, t.appended ++ [(chain, rule)]⟩ else none
  | .table _ | .commit => none

theorem fold_rules (t : Table) {rules : List (List Char × Rule)} (taken : ∀ a ∈ rules, takes t.declared a.1 a.2 = true) :
    (rules.map fun a => Line.append a.1 a.2).foldlM step t = some ⟨t.declared, t.appended ++ rules⟩ := by
  induction rules generalizing t with
  | nil => rw [List.append_nil]; rfl
  | cons a rules ih =>
    have first : step t (.append a.1 a.2) = some ⟨t.declared, t.appended ++ [a]⟩ := if_pos (taken a List.mem_cons_self)
    rw [List.map_cons, List.foldlM_cons, first]
    refine (ih ⟨t.declared, t.appended ++ [a]⟩ fun b member => taken b (List.mem_cons_of_mem _ member)).trans ?_
    rw [List.append_assoc, List.singleton_append]

theorem shallow_end {t : Table} {chain : List Char} (ends : ∀ rule ∈ t.rules chain, ∀ name, rule.target ≠ some (.chain name)) (depth : Nat) :
    t.shallow (depth + 1) chain = true := by
  rw [shallow, List.all_eq_true]
  intro rule member
  split
  next name leads => exact absurd leads (ends rule member name)
  next => rfl

end Table

def restore (text : List Char) : Option Table :=
  ((text.splitOn '\n').mapM readLine).bind fun lines =>
    match lines.filter (· ≠ .comment) with
    | .table name :: rest => if name = "filter".toList ∧ rest.getLast? = some .commit then
        (rest.dropLast.foldlM Table.step ⟨[], []⟩).filter Table.loopFree
      else none
    | _ => none

theorem restore_lines {text : List (List Char)} {lines : List Line} (body : List Line) {t : Table} (read : List.Forall₂ IsLine text lines)
    (shape : lines.filter (· ≠ .comment) = .table "filter".toList :: (body ++ [.commit])) (built : body.foldlM Table.step ⟨[], []⟩ = some t)
    (loopFree : t.loopFree = true) : restore (text.flatMap (· ++ ['\n'])) = some t := by
  have split : (text.flatMap (· ++ ['\n'])).splitOn '\n' = text ++ [[]] := by
    have joined : text.flatMap (· ++ ['\n']) = ['\n'].intercalate (text ++ [[]]) := by
      clear read
      induction text with
      | nil => rfl
      | cons line text ih =>
        rw [List.flatMap_cons, ih]
        cases text <;> simp [List.intercalate]
    rw [joined]
    have unbroken : ∀ line ∈ text, '\n' ∉ line := by
      clear joined shape
      induction read with
      | nil => exact nofun
      | cons first _ ih => exact List.forall_mem_cons.mpr ⟨first.1, ih⟩
    refine List.splitOn_intercalate _ ?_ (by simp)
    intro line member
    rcases List.mem_append.mp member with inside | last
    · exact unbroken line inside
    · rw [List.mem_singleton.mp last]
      exact List.not_mem_nil
  have lined : (text ++ [[]]).mapM readLine = some (lines ++ [.comment]) := by
    clear shape split
    induction read with
    | nil => rfl
    | cons first _ ih =>
      rw [List.cons_append, List.mapM_cons, first.2, ih]
      rfl
  rw [restore, split, lined, Option.bind_some, List.filter_append, shape]
  simp [built, loopFree]

end Netfilter
