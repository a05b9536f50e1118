import WolfStack.Auth.ClusterSecret
import WolfStack.Auth.IpAddr
import Mathlib.Data.List.TakeWhile

/-! Subnet routes: how their networks are read, which of them cover a network, which of
them concern a node, and which two cannot stand side by side. -/

namespace Router
open Auth

/-- `str::split_once`. -/
def splitOnce (c : Char) (chars : List Char) : Option (List Char × List Char) :=
  match chars.dropWhile (· ≠ c) with
  | _ :: rest => some (chars.takeWhile (· ≠ c), rest)
  | [] => none

/-- `str::split`, which finds one part more than there are separators. -/
def splitOn (c : Char) : List Char → List (List Char)
  | [] => [[]]
  | first :: rest =>
    if first = c then [] :: splitOn c rest
    else match splitOn c rest with
      | part :: parts => (first :: part) :: parts
      | [] => [[first]]

/-- What stands between the white spaces, empty parts included. -/
def whiteParts (chars : List Char) : List (List Char) :=
  chars.foldr (fun c words =>
    if isWhitespace c then [] :: words
    else match words with
      | word :: rest => (c :: word) :: rest
      | [] => [[c]]) [[]]

/-- `str::split_whitespace`. -/
def splitWhitespace (chars : List Char) : List (List Char) := (whiteParts chars).filter (· ≠ [])

theorem whiteParts_word {first rest : List Char} {others : List (List Char)} (word : List Char)
    (dark : ∀ c ∈ word, isWhitespace c = false) (same : whiteParts rest = first :: others) :
    whiteParts (word ++ rest) = (word ++ first) :: others := by
  induction word with
  | nil => exact same
  | cons c word ih =>
    have later := ih fun c member => dark c (List.mem_cons_of_mem _ member)
    rw [whiteParts, List.cons_append, List.foldr_cons, ← whiteParts, dark c List.mem_cons_self, if_neg Bool.false_ne_true, later]
    rfl

def Words (words : List (List Char)) : Prop := ∀ word ∈ words, word ≠ [] ∧ ∀ c ∈ word, isWhitespace c = false

theorem whiteParts_joined {words : List (List Char)} (clean : Words words) (some_ : words ≠ []) :
    whiteParts ([' '].intercalate words) = words := by
  induction words with
  | nil => exact absurd rfl some_
  | cons word rest ih =>
    have dark := (clean word List.mem_cons_self).2
    cases rest with
    | nil =>
      have last : whiteParts (word ++ []) = _ := whiteParts_word word dark rfl
      simpa [List.intercalate] using last
    | cons next others =>
      have later := ih (fun word member => clean word (List.mem_cons_of_mem _ member)) (List.cons_ne_nil _ _)
      have gap : whiteParts (' ' :: [' '].intercalate (next :: others)) = [] :: next :: others := by
        rw [whiteParts, List.foldr_cons, ← whiteParts, if_pos (by decide), later]
      have shape : [' '].intercalate (word :: next :: others) = word ++ ' ' :: [' '].intercalate (next :: others) := by
        simp [List.intercalate]
      rw [shape, whiteParts_word word dark gap, List.append_nil]

theorem splitWhitespace_joined {words : List (List Char)} (clean : Words words) : splitWhitespace ([' '].intercalate words) = words := by
  cases words with
  | nil => rfl
  | cons word rest =>
    change (whiteParts ([' '].intercalate (word :: rest))).filter _ = _
    rw [whiteParts_joined clean (List.cons_ne_nil _ _), List.filter_eq_self]
    intro word member
    exact decide_eq_true (clean word member).1

/-- `u32::from_str`. -/
def parseU32 (chars : List Char) : Option Nat :=
  let digits := match chars with
    | '+' :: rest => rest
    | all => all
  match readNumber 10 digits.length 4294967295 true digits with
  | some (value, []) => some value
  | _ => none

theorem digitValue_digit {c : Char} (digit : c.isDigit = true) : digitValue 10 c = some (c.toNat - '0'.toNat) := by
  obtain ⟨low, high⟩ : 48 ≤ c.toNat ∧ c.toNat ≤ 57 := Char.isDigit_iff_toNat.mp digit
  have within : '0' ≤ c ∧ c ≤ '9' := ⟨low, high⟩
  have small : c.toNat - 48 < 10 := by omega
  unfold digitValue
  dsimp only
  rw [if_pos within]
  exact if_pos small

theorem parseU32_unsigned {chars : List Char} (unsigned : chars.head? ≠ some '+') : parseU32 chars =
    match readNumber 10 chars.length 4294967295 true chars with
    | some (value, []) => some value
    | _ => none := by
  unfold parseU32
  split
  · exact absurd rfl unsigned
  · rfl

theorem parseU32_digits {digits : List Char} (some_ : digits ≠ []) (all : ∀ c ∈ digits, c.isDigit = true) :
    parseU32 digits = if 4294967295 < Nat.ofDigitChars 10 digits 0 then none else some (Nat.ofDigitChars 10 digits 0) := by
  have unsigned : digits.head? ≠ some '+' := by
    intro plus
    exact absurd (all '+' (List.mem_of_head? plus)) (by decide)
  have taken : (digits.takeWhile fun c => (digitValue 10 c).isSome) = digits := by
    apply List.takeWhile_eq_self_iff.mpr
    intro c member
    rw [digitValue_digit (all c member)]
    rfl
  have value : digits.foldl (fun value c => 10 * value + (digitValue 10 c).getD 0) 0 = Nat.ofDigitChars 10 digits 0 := by
    apply List.foldl_ext
    intro value c member
    rw [digitValue_digit (all c member)]
    rfl
  rw [parseU32_unsigned unsigned]
  by_cases large : 4294967295 < Nat.ofDigitChars 10 digits 0
  · have read : readNumber 10 digits.length 4294967295 true digits = none := by
      unfold readNumber
      dsimp only
      rw [taken, value, if_pos (.inr (.inr large))]
    rw [read, if_pos large]
  · have read : readNumber 10 digits.length 4294967295 true digits = some (Nat.ofDigitChars 10 digits 0, []) := by
      unfold readNumber
      dsimp only
      rw [taken, value, List.drop_length, if_neg (by simp [some_, large]), if_neg (by simp)]
    rw [read, if_neg large]

theorem parseU32_toDigits {n : Nat} (small : n < 4294967296) : parseU32 (Nat.toDigits 10 n) = some n := by
  rw [parseU32_digits Nat.toDigits_ne_nil fun c member => Nat.isDigit_of_mem_toDigits (by decide) (by decide) member,
    Nat.ofDigitChars_ten_toDigits, if_neg (by omega)]

theorem splitWhitespace_head {word rest : List Char} (some_ : word ≠ []) (dark : ∀ c ∈ word, isWhitespace c = false) :
    (splitWhitespace (word ++ ' ' :: rest)).head? = some word := by
  have gap : whiteParts (' ' :: rest) = [] :: whiteParts rest := by
    rw [whiteParts, List.foldr_cons, ← whiteParts, if_pos (by decide)]
  change ((whiteParts (word ++ ' ' :: rest)).filter _).head? = _
  rw [whiteParts_word word dark gap, List.append_nil, List.filter_cons_of_pos (by simpa using some_)]
  rfl

/-- `Ipv4Addr::from_str`. -/
def parseIpv4 (chars : List Char) : Option (BitVec 32) :=
  match readIpv4 chars with
  | some (bits, []) => some bits
  | _ => none

/-- `Ipv6Addr::from_str`. -/
def parseIpv6 (chars : List Char) : Option (BitVec 128) :=
  match readIpv6 chars with
  | some (bits, []) => some bits
  | _ => none

def parseCidr (cidr : String) : Option (List Char × Nat) := do
  let (ip, prefix_) ← splitOnce '/' cidr.toList
  let prefix_ ← parseU32 prefix_
  if 32 < prefix_ then none
  else
    let parts := splitOn '.' ip
    if parts.length ≠ 4 then none
    else if parts.all (fun p => (parseU32 p).any (· ≤ 255)) then some (ip, prefix_)
    else none

def isIpv6Cidr (cidr : String) : Bool := ((splitOnce '/' cidr.toList).bind fun parts => parseIpv6 parts.1).isSome

def maskV6 (prefix_ : Nat) : BitVec 128 := if prefix_ = 0 then 0 else BitVec.allOnes 128 <<< (128 - prefix_)

def parseCidrV6 (cidr : String) : Option (BitVec 128 × Nat) := do
  let (ip, prefix_) ← splitOnce '/' cidr.toList
  let bits ← parseIpv6 ip
  let prefix_ ← parseU32 prefix_
  if 128 < prefix_ then none else some (bits &&& maskV6 prefix_, prefix_)

/-- A text that is no address counts as 0.0.0.0. -/
def ipv4ToU32 (chars : List Char) : BitVec 32 := (parseIpv4 chars).getD 0

def maskV4 (prefix_ : Nat) : BitVec 32 := if prefix_ = 0 then 0 else BitVec.allOnes 32 <<< (32 - prefix_)

/-- Whether a network is the other, or a wider one of the same family. A target that does not
parse counts as covered by anything. -/
def routeSetCoversCidr (targetCidr : String) (existing : List (String × String)) : Bool :=
  if isIpv6Cidr targetCidr then
    match parseCidrV6 targetCidr with
    | none => true
    | some (tnet, tprefix) => existing.any fun (cidr, _) =>
      isIpv6Cidr cidr && match parseCidrV6 cidr with
        | none => false
        | some (rnet, rprefix) => rprefix ≤ tprefix && tnet &&& maskV6 rprefix == rnet &&& maskV6 rprefix
  else
    match parseCidr targetCidr with
    | none => true
    | some (tnet, tprefix) => existing.any fun (cidr, _) =>
      !isIpv6Cidr cidr && match parseCidr cidr with
        | none => false
        | some (rnet, rprefix) =>
          rprefix ≤ tprefix && ipv4ToU32 tnet &&& maskV4 rprefix == ipv4ToU32 rnet &&& maskV4 rprefix

/-- `DEFAULT_BRIDGE_CIDRS`. -/
def defaultBridgeCidrs : List String := ["172.17.0.0/16", "10.0.3.0/24"]

def isDefaultBridgeCidr (cidr : String) : Bool := defaultBridgeCidrs.contains cidr

def cidrParses (cidr : String) : Bool := if isIpv6Cidr cidr then (parseCidrV6 cidr).isSome else (parseCidr cidr).isSome

theorem covers_append (target : String) (first second : List (String × String)) :
    routeSetCoversCidr target (first ++ second) = (routeSetCoversCidr target first || routeSetCoversCidr target second) := by
  unfold routeSetCoversCidr
  split
  · split
    · rfl
    · exact List.any_append
  · split
    · rfl
    · exact List.any_append

theorem covers_cons (target : String) (entry : String × String) (rest : List (String × String)) :
    routeSetCoversCidr target (entry :: rest) = (routeSetCoversCidr target [entry] || routeSetCoversCidr target rest) :=
  covers_append target [entry] rest

theorem covers_self {cidr : String} (formed : cidrParses cidr = true) (gateway : String) : routeSetCoversCidr cidr [(cidr, gateway)] = true := by
  unfold cidrParses at formed
  unfold routeSetCoversCidr
  split at formed
  · rename_i v6
    obtain ⟨⟨net, prefix_⟩, parsed⟩ := Option.isSome_iff_exists.mp formed
    simp [v6, parsed]
  · rename_i v4
    obtain ⟨⟨net, prefix_⟩, parsed⟩ := Option.isSome_iff_exists.mp formed
    simp [v4, parsed]

theorem covers_nothing {cidr : String} (formed : cidrParses cidr = true) : routeSetCoversCidr cidr [] = false := by
  unfold cidrParses at formed
  unfold routeSetCoversCidr
  split at formed
  · rename_i v6
    obtain ⟨found, parsed⟩ := Option.isSome_iff_exists.mp formed
    simp [v6, parsed]
  · rename_i v4
    obtain ⟨found, parsed⟩ := Option.isSome_iff_exists.mp formed
    simp [v4, parsed]

theorem covers_gateway (target cidr gateway other : String) :
    routeSetCoversCidr target [(cidr, gateway)] = routeSetCoversCidr target [(cidr, other)] := by
  unfold routeSetCoversCidr
  rfl

theorem covers_iff {target : String} (formed : cidrParses target = true) (existing : List (String × String)) :
    routeSetCoversCidr target existing = true ↔ ∃ entry ∈ existing, routeSetCoversCidr target [entry] = true := by
  induction existing with
  | nil => simp [covers_nothing formed]
  | cons entry rest ih => rw [covers_cons, Bool.or_eq_true, ih]; simp

structure SubnetRoute where
  id : String
  subnetCidr : String
  gateway : String
  nodeId : Option String
  enabled : Bool
  description : String
  operatorEdited : Bool
deriving DecidableEq, Repr

def routeTargetsSelf (route : SubnetRoute) (selfNodeId : String) : Bool :=
  route.nodeId.isNone || route.nodeId == some selfNodeId

/-- `own` are the addresses of the WolfNet interface. -/
def nodeIsRouteGateway (own : List String) (route : SubnetRoute) : Bool := own.contains route.gateway

def nodeHandlesRoute (own : List String) (route : SubnetRoute) (selfNodeId : String) : Bool :=
  routeTargetsSelf route selfNodeId || nodeIsRouteGateway own route

def routesCanOverlap (a b : SubnetRoute) : Bool :=
  if !a.enabled || !b.enabled then false
  else if a.subnetCidr ≠ b.subnetCidr then false
  else a.nodeId.isNone || b.nodeId.isNone || a.nodeId == b.nodeId

/-- The gateway in the output of `ip route show`, where it has one. -/
def gatewayOf : List (List Char) → Option (List Char)
  | ['v', 'i', 'a'] :: gw :: rest => if (parseIpv4 gw).isSome then some gw else gatewayOf rest
  | _ :: rest => gatewayOf rest
  | [] => none

def parseRouteGateway (raw : String) : Option String :=
  ((splitOn '\n' raw.toList).find? fun line => splitWhitespace line ≠ []).bind fun line =>
    (gatewayOf (splitWhitespace line)).map String.ofList

end Router
