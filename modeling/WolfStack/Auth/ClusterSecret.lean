import Mathlib.Data.Nat.Bitwise
import Mathlib.Data.Nat.Digits.Lemmas
import WolfStack.Auth.IpAddr

/-! The cluster secret and the three values that authenticate a call between
nodes, after `auth/mod.rs`: what a node holds in memory, what its secret file
holds now, and the built-in default where that is still allowed. -/

namespace Auth

/-- `char::is_whitespace`. -/
def isWhitespace (c : Char) : Bool :=
  let code := c.toNat
  (9 ≤ code && code ≤ 13) || code == 0x20 || code == 0x85 || code == 0xA0 || code == 0x1680 ||
    (0x2000 ≤ code && code ≤ 0x200A) || code == 0x2028 || code == 0x2029 || code == 0x202F ||
    code == 0x205F || code == 0x3000

theorem digit_dark {c : Char} (digit : c.isDigit = true) : isWhitespace c = false := by
  have range : 48 ≤ c.toNat ∧ c.toNat ≤ 57 := Char.isDigit_iff_toNat.mp digit
  simp only [isWhitespace, Bool.or_eq_false_iff, Bool.and_eq_false_iff, decide_eq_false_iff_not, beq_eq_false_iff_ne]
  omega

def trim (text : String) : String :=
  String.ofList ((text.toList.dropWhile isWhitespace).reverse.dropWhile isWhitespace).reverse

theorem trim_ends (text : String) (front : ∀ c, text.toList.head? = some c → isWhitespace c = false)
    (back : ∀ c, text.toList.getLast? = some c → isWhitespace c = false) : trim text = text := by
  have untouched : ∀ chars : List Char, (∀ c, chars.head? = some c → isWhitespace c = false) →
      chars.dropWhile isWhitespace = chars := by
    intro chars dark
    cases chars with
    | nil => rfl
    | cons c rest => exact List.dropWhile_cons_of_neg (by simp [dark c rfl])
  have ends : ∀ c, text.toList.reverse.head? = some c → isWhitespace c = false := by
    intro c last
    rw [List.head?_reverse] at last
    exact back c last
  rw [trim, untouched _ front, untouched _ ends, List.reverse_reverse, String.ofList_toList]

theorem trim_clean (text : String) (clean : ∀ c ∈ text.toList, isWhitespace c = false) : trim text = text := by
  apply trim_ends
  · intro c first
    exact clean c (List.mem_of_head? first)
  · intro c last
    exact clean c (List.mem_of_getLast? last)

def clusterSecret : String := "wsk_a7f3b9e2c1d4f6a8b0e3d5c7f9a1b3d5e7f9a1c3b5d7e9f0a2b4c6d8e0f1a3"

/-- What `read_to_string` finds in the secret file, if it can be read, decides the secret. -/
def loadClusterSecret (file : Option String) : String :=
  match file with
  | some secret => if trim secret ≠ "" then trim secret else clusterSecret
  | none => clusterSecret

def hasCustomClusterSecret (file : Option String) : Bool :=
  match file with
  | some s => trim s ≠ "" && trim s ≠ clusterSecret
  | none => false

def isAsciiHexdigit (c : Char) : Bool :=
  ('0' ≤ c && c ≤ '9') || ('a' ≤ c && c ≤ 'f') || ('A' ≤ c && c ≤ 'F')

def isAsciiUppercase (c : Char) : Bool := 'A' ≤ c && c ≤ 'Z'

/-- A prefix and 64 lowercase hexadecimal digits. -/
def validSecretShape (s : String) : Bool :=
  match s.toList with
  | 'w' :: 's' :: 'k' :: '_' :: rest =>
    (String.ofList rest).utf8ByteSize == 64 && rest.all fun c => isAsciiHexdigit c && !isAsciiUppercase c
  | _ => false

/-- Every bit in which two byte strings differ, their lengths included. -/
def differences (a b : List UInt8) : UInt8 :=
  let lenDiff := ((Nat.digits 256 (a.length ^^^ b.length)).map UInt8.ofNat).foldl (fun acc byte => acc ||| byte) 0
  (List.range (max a.length b.length)).foldl (fun acc i => acc ||| ((a[i]?.getD 0) ^^^ (b[i]?.getD 0))) lenDiff

def validateClusterSecret (provided expected : String) : Bool :=
  if provided.isEmpty || expected.isEmpty then false
  else differences provided.toUTF8.data.toList expected.toUTF8.data.toList == 0

theorem foldl_or_eq_zero (bits : α → UInt8) (items : List α) (start : UInt8) :
    items.foldl (fun acc item => acc ||| bits item) start = 0 ↔ start = 0 ∧ ∀ item ∈ items, bits item = 0 := by
  induction items generalizing start with
  | nil => simp
  | cons item rest ih =>
    rw [List.foldl_cons, ih, UInt8.or_eq_zero_iff, List.forall_mem_cons, and_assoc]

theorem digits_eq_zero (number : Nat)
    (zero : ∀ byte ∈ (Nat.digits 256 number).map UInt8.ofNat, byte = 0) : number = 0 := by
  have digit : ∀ d ∈ Nat.digits 256 number, d = 0 := by
    intro d member
    have small : d < 256 := Nat.digits_lt_base (by decide) member
    have wrapped := congrArg UInt8.toNat (zero _ (List.mem_map_of_mem member))
    rw [UInt8.toNat_ofNat'] at wrapped
    simp only [UInt8.toNat_zero] at wrapped
    omega
  by_contra positive
  have last := Nat.getLast_digit_ne_zero 256 positive
  exact last (digit _ (List.getLast_mem _))

theorem differences_eq_zero (a b : List UInt8) : differences a b = 0 ↔ a = b := by
  rw [differences, foldl_or_eq_zero, foldl_or_eq_zero (fun byte => byte)]
  constructor
  · rintro ⟨⟨-, lengths⟩, bytes⟩
    have same : a.length = b.length := Nat.xor_eq_zero_iff.mp (digits_eq_zero _ lengths)
    apply List.ext_getElem same
    intro i inA inB
    have equal := UInt8.xor_eq_zero_iff.mp (bytes i (List.mem_range.mpr (by omega)))
    rwa [List.getElem?_eq_getElem inA, List.getElem?_eq_getElem inB] at equal
  · rintro rfl
    simp

theorem validateClusterSecret_iff (provided expected : String) :
    validateClusterSecret provided expected = true ↔ provided = expected ∧ provided ≠ "" := by
  have bytes : provided.toUTF8.data.toList = expected.toUTF8.data.toList ↔ provided = expected := by
    rw [Array.toList_inj, ← ByteArray.ext_iff]
    exact String.toByteArray_inj
  rw [validateClusterSecret]
  split
  · rename_i empty
    simp only [Bool.or_eq_true, String.isEmpty_iff] at empty
    simp only [Bool.false_eq_true, false_iff, not_and, not_not]
    rintro rfl
    exact empty.elim id id
  · rename_i full
    simp only [Bool.or_eq_true, String.isEmpty_iff, not_or] at full
    rw [beq_iff_eq, differences_eq_zero, bytes]
    exact (and_iff_left full.1).symm

theorem loadClusterSecret_ne_empty (file : Option String) : loadClusterSecret file ≠ "" := by
  have builtin : clusterSecret ≠ "" := by decide
  cases file with
  | none => exact builtin
  | some secret =>
    simp only [loadClusterSecret]
    split
    · assumption
    · exact builtin

theorem validSecretShape_chars (s : String) (shape : validSecretShape s = true) :
    s.toList ≠ [] ∧ ∀ c ∈ s.toList, isWhitespace c = false := by
  have digit : ∀ c, isAsciiHexdigit c = true → isWhitespace c = false := by
    intro c hex
    simp only [isAsciiHexdigit, Bool.or_eq_true, Bool.and_eq_true, decide_eq_true_eq, Char.le_def,
      UInt32.le_iff_toNat_le] at hex
    simp only [isWhitespace, Char.toNat]
    simp at hex ⊢
    omega
  rw [validSecretShape] at shape
  split at shape
  · rename_i rest chars
    rw [chars]
    refine ⟨nofun, ?_⟩
    simp only [Bool.and_eq_true, List.all_eq_true] at shape
    intro c member
    simp only [List.mem_cons] at member
    rcases member with rfl | rfl | rfl | rfl | member
    · rfl
    · rfl
    · rfl
    · rfl
    · exact digit c (shape.2 c member).1
  · cases shape

theorem validSecretShape_loads (s : String) (shape : validSecretShape s = true) : loadClusterSecret (some s) = s := by
  obtain ⟨nonempty, clean⟩ := validSecretShape_chars s shape
  have kept := trim_clean s clean
  have full : s ≠ "" := by
    rintro rfl
    exact nonempty rfl
  simp only [loadClusterSecret, kept, ne_eq, full, not_false_eq_true, if_true]

theorem validSecretShape_custom (s : String) (shape : validSecretShape s = true) : s ≠ clusterSecret := by
  rintro rfl
  exact absurd shape (by decide +kernel)

theorem validSecretShape_hasCustom (s : String) (shape : validSecretShape s = true) :
    hasCustomClusterSecret (some s) = true := by
  obtain ⟨nonempty, clean⟩ := validSecretShape_chars s shape
  have full : s ≠ "" := by
    rintro rfl
    exact nonempty rfl
  simp only [hasCustomClusterSecret, trim_clean s clean, ne_eq, full, validSecretShape_custom s shape,
    not_false_eq_true, decide_true, Bool.and_true]

/-- What authentication reads on a node. The last field is what the addresses in
`nodes.json` resolve to. -/
structure Authority where
  file : Option String
  inMemory : String
  rejectDefault : Option String
  acceptDefault : Option String
  recorded : List IpAddr
deriving Repr

def toAsciiLowercase (c : Char) : Char :=
  if isAsciiUppercase c then Char.ofNat (c.toNat + 32) else c

/-- How an environment flag reads: `1`, or `true` in any case. -/
def isSet (value : Option String) : Bool :=
  match value with
  | some v => v == "1" || v.toList.map toAsciiLowercase == "true".toList
  | none => false

def Authority.peerIsRecorded (node : Authority) (peer : IpAddr) : Bool :=
  (node.recorded.map canonicalIp).contains (canonicalIp peer)

def Authority.defaultSecretAcceptedFrom (node : Authority) (peer : Option IpAddr) : Bool :=
  if isSet node.rejectDefault then false
  else if isSet node.acceptDefault then true
  else if hasCustomClusterSecret node.file then false
  else match peer with
    | some ip => node.peerIsRecorded ip
    | none => false

def Authority.validateInterNodeSecretFrom (node : Authority) (provided : String) (peer : Option IpAddr) : Bool :=
  if validateClusterSecret provided clusterSecret then node.defaultSecretAcceptedFrom peer
  else if validateClusterSecret provided node.inMemory then true
  else if validateClusterSecret provided (loadClusterSecret node.file) then true
  else false

/-- The operator lets the built-in default in whatever the node's own secret is. -/
def Authority.ForcesDefault (node : Authority) : Prop :=
  isSet node.rejectDefault = false ∧ isSet node.acceptDefault = true

theorem validateInterNodeSecretFrom_iff (node : Authority) (provided : String) (peer : Option IpAddr)
    (nonempty : provided ≠ "") :
    node.validateInterNodeSecretFrom provided peer = true ↔
      if provided = clusterSecret then node.defaultSecretAcceptedFrom peer = true
      else provided = node.inMemory ∨ provided = loadClusterSecret node.file := by
  have same (expected : String) : validateClusterSecret provided expected = true ↔ provided = expected := by
    rw [validateClusterSecret_iff, and_iff_left nonempty]
  simp only [Authority.validateInterNodeSecretFrom, same]
  split
  · rfl
  · split
    · simp [*]
    · split
      · simp [*]
      · simp [*]

theorem defaultSecretAcceptedFrom_custom (node : Authority) (peer : Option IpAddr)
    (custom : hasCustomClusterSecret node.file = true) :
    node.defaultSecretAcceptedFrom peer = true ↔ node.ForcesDefault := by
  simp only [Authority.defaultSecretAcceptedFrom, Authority.ForcesDefault, custom, if_true]
  cases isSet node.rejectDefault with
  | true => simp
  | false =>
    cases isSet node.acceptDefault with
    | true => simp
    | false => simp

end Auth
