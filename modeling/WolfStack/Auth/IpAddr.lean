import Mathlib.Data.BitVec

/-! Addresses: how their text is read, the form in which an IPv4 address mapped into
IPv6 counts as IPv4, and networks. -/

namespace Auth

inductive IpAddr where
  | v4 (bits : BitVec 32)
  | v6 (bits : BitVec 128)
deriving DecidableEq, Repr

/-- `Ipv6Addr::to_ipv4_mapped`. -/
def toIpv4Mapped (bits : BitVec 128) : Option (BitVec 32) :=
  if bits.extractLsb' 32 96 = 0xffff then some (bits.extractLsb' 0 32) else none

def canonicalIp : IpAddr → IpAddr
  | .v6 bits => match toIpv4Mapped bits with
    | some v4 => .v4 v4
    | none => .v6 bits
  | .v4 bits => .v4 bits

def digitValue (radix : Nat) (c : Char) : Option Nat :=
  let value :=
    if '0' ≤ c ∧ c ≤ '9' then c.toNat - '0'.toNat
    else if 'a' ≤ c ∧ c ≤ 'f' then c.toNat - 'a'.toNat + 10
    else if 'A' ≤ c ∧ c ≤ 'F' then c.toNat - 'A'.toNat + 10
    else radix
  if value < radix then some value else none

/-- All digits that follow, at most so many of them and no larger than the bound. -/
def readNumber (radix maxDigits bound : Nat) (allowZeroPrefix : Bool) (chars : List Char) : Option (Nat × List Char) :=
  let digits := chars.takeWhile fun c => (digitValue radix c).isSome
  let value := digits.foldl (fun value c => radix * value + (digitValue radix c).getD 0) 0
  if digits = [] ∨ maxDigits < digits.length ∨ bound < value then none
  else if !allowZeroPrefix ∧ digits.head? = some '0' ∧ 1 < digits.length then none
  else some (value, chars.drop digits.length)

def readChar (c : Char) : List Char → Option (List Char)
  | first :: rest => if first = c then some rest else none
  | [] => none

def readIpv4 (chars : List Char) : Option (BitVec 32 × List Char) := do
  let (a, chars) ← readNumber 10 3 255 false chars
  let (b, chars) ← readNumber 10 3 255 false (← readChar '.' chars)
  let (c, chars) ← readNumber 10 3 255 false (← readChar '.' chars)
  let (d, chars) ← readNumber 10 3 255 false (← readChar '.' chars)
  return (BitVec.ofNat 32 (((a * 256 + b) * 256 + c) * 256 + d), chars)

def afterSeparator (first : Bool) (chars : List Char) : Option (List Char) :=
  if first then some chars else readChar ':' chars

/-- The groups that can be read, at most `room` of them, and whether an IPv4 address
ended them. -/
def readGroups : (room : Nat) → (first : Bool) → List Char → List Nat × Bool × List Char
  | 0, _, chars => ([], false, chars)
  | room + 1, first, chars =>
    let embedded := if room = 0 then none else (afterSeparator first chars).bind readIpv4
    match embedded with
    | some (v4, rest) => ([v4.toNat / 65536, v4.toNat % 65536], true, rest)
    | none => match (afterSeparator first chars).bind (readNumber 16 4 0xffff true) with
      | some (group, rest) =>
        let (groups, endsV4, rest) := readGroups room false rest
        (group :: groups, endsV4, rest)
      | none => ([], false, chars)

def ipv6OfGroups (groups : List Nat) : BitVec 128 :=
  BitVec.ofNat 128 (groups.foldl (fun value group => value * 65536 + group) 0)

def readIpv6 (chars : List Char) : Option (BitVec 128 × List Char) :=
  let (head, headV4, chars) := readGroups 8 true chars
  if head.length = 8 then some (ipv6OfGroups head, chars)
  else if headV4 then none
  else do
    let chars ← readChar ':' (← readChar ':' chars)
    let (tail, _, chars) := readGroups (7 - head.length) true chars
    return (ipv6OfGroups (head ++ List.replicate (8 - head.length - tail.length) 0 ++ tail), chars)

/-- `IpAddr::from_str`. -/
def parseIp (text : String) : Option IpAddr :=
  match readIpv4 text.toList with
  | some (bits, []) => some (.v4 bits)
  | _ => match readIpv6 text.toList with
    | some (bits, []) => some (.v6 bits)
    | _ => none

example : parseIp "::ffff:192.0.2.7" = some (.v6 0xffffc0000207) := by decide +kernel

def ipInCidr (target net : IpAddr) (bits : Nat) : Bool :=
  match target, net with
  | .v4 t, .v4 n => bits ≤ 32 && t &&& (BitVec.allOnes 32 <<< (32 - bits)) == n &&& (BitVec.allOnes 32 <<< (32 - bits))
  | .v6 t, .v6 n =>
    bits ≤ 128 && t &&& (BitVec.allOnes 128 <<< (128 - bits)) == n &&& (BitVec.allOnes 128 <<< (128 - bits))
  | _, _ => false

/-- `u8::from_str`. -/
def parseU8 (chars : List Char) : Option Nat :=
  let digits := match chars with
    | '+' :: rest => rest
    | all => all
  match readNumber 10 digits.length 255 true digits with
  | some (value, []) => some value
  | _ => none

/-- Whether a trusted entry, an address or a network, covers an address. Entries that
do not parse cover none. -/
def trustedEntryCovers (entry : String) (target : IpAddr) : Bool :=
  let chars := entry.toList
  match chars.dropWhile (· ≠ '/') with
  | _ :: length =>
    match parseIp (String.ofList (chars.takeWhile (· ≠ '/'))), parseU8 length with
    | some net, some bits => ipInCidr target net bits
    | _, _ => false
  | [] => parseIp entry == some target

end Auth
