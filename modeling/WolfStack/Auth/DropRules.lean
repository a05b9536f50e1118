import WolfStack.Auth.LoginLimiter
import WolfStack.Auth.ClusterSecret

/-! Kernel blocks on a host without ipset: one DROP rule for each address in two chains,
and what WolfStack reads back of them from the listing, after `auth/mod.rs`. -/

namespace Auth

inductive Chain where
  | input
  | forward
deriving DecidableEq, Repr

def Chain.name : Chain → String
  | .input => "INPUT"
  | .forward => "FORWARD"

/-- A rule: the source it is for, its further matches in the order they were given, its target. -/
structure DropRule where
  source : Option (IpAddr × Nat)
  matches_ : List String
  target : String
deriving DecidableEq, Repr

def IpAddr.isV6 : IpAddr → Bool
  | .v4 _ => false
  | .v6 _ => true

def hostBits (ip : IpAddr) : Nat := if ip.isV6 then 128 else 32

/-- `-m conntrack --ctstate NEW -s <ip> -j DROP`. -/
def perIpRuleSpec (ip : IpAddr) : DropRule := ⟨some (ip, hostBits ip), ["-m", "conntrack", "--ctstate", "NEW"], "DROP"⟩

/-- `-s <ip> -j DROP`, as WolfStack wrote it once. -/
def legacyPerIpRuleSpec (ip : IpAddr) : DropRule := ⟨some (ip, hostBits ip), [], "DROP"⟩

abbrev Firewall := Bool → Chain → List DropRule

/-- `-D` as long as it succeeds, so many times. -/
def deleteUpTo : Nat → DropRule → List DropRule → List DropRule
  | 0, _, rules => rules
  | tries + 1, rule, rules => if rule ∈ rules then deleteUpTo tries rule (rules.erase rule) else rules

def removeLegacyPerIpRule (ip : IpAddr) (rules : List DropRule) : List DropRule :=
  deleteUpTo 10 (legacyPerIpRuleSpec ip) rules

def insertDropRule (ip : IpAddr) (rules : List DropRule) : List DropRule :=
  if perIpRuleSpec ip ∈ rules then removeLegacyPerIpRule ip rules
  else removeLegacyPerIpRule ip (perIpRuleSpec ip :: rules)

def removeDropRule (ip : IpAddr) (rules : List DropRule) : List DropRule :=
  removeLegacyPerIpRule ip (deleteUpTo 10 (perIpRuleSpec ip) rules)

namespace Firewall

def both (host : Firewall) (ip : IpAddr) (change : List DropRule → List DropRule) : Firewall :=
  fun v6 chain => if v6 = ip.isV6 then change (host v6 chain) else host v6 chain

/-- The guard refuses addresses under protection. -/
def kernelBlockIp (host : Firewall) (protected_ : IpAddr → Bool) (ip : String) : Firewall :=
  match canonical ip with
  | some target => if protected_ target then host else host.both target (insertDropRule target)
  | none => host

def kernelUnblockIp (host : Firewall) (ip : String) : Firewall :=
  match canonical ip with
  | some target => host.both target (removeDropRule target)
  | none => host

end Firewall

section
variable (shown : IpAddr → String)

/-- A line of `iptables -S`. -/
def listed (chain : Chain) (rule : DropRule) : List Char :=
  let source := match rule.source with
    | some (ip, bits) => " -s ".toList ++ (shown ip).toList ++ '/' :: (toString bits).toList
    | none => []
  "-A ".toList ++ chain.name.toList ++ source ++ rule.matches_.flatMap (fun word => ' ' :: word.toList) ++
    " -j ".toList ++ rule.target.toList

def dropPrefix (front chars : List Char) : Option (List Char) :=
  if front <+: chars then some (chars.drop front.length) else none

def splitAt (c : Char) (chars : List Char) : Option (List Char × List Char) :=
  match chars.dropWhile (· ≠ c) with
  | _ :: rest => some (chars.takeWhile (· ≠ c), rest)
  | [] => none

/-- `parse_wolfstack_drop_rule`. -/
def parseWolfstackDropRule (line : List Char) (chain : Chain) : Option IpAddr := do
  let rest ← dropPrefix "-A ".toList line
  let rest ← dropPrefix chain.name.toList rest
  let rest ← dropPrefix " -s ".toList rest
  let (cidr, tail) ← splitAt ' ' rest
  if trim (String.ofList tail) ≠ "-j DROP" then none
  else
    let (ipPart, pfx) := match splitAt '/' cidr with
      | some (ip, pfx) => (ip, some (String.ofList pfx))
      | none => (cidr, none)
    match parseIp (String.ofList ipPart) with
    | some (.v4 bits) => if pfx = none ∨ pfx = some "32" then some (.v4 bits) else none
    | some (.v6 bits) => if pfx = none ∨ pfx = some "128" then some (.v6 bits) else none
    | none => none

/-- The addresses that WolfStack takes for blocked, of one family. -/
def Firewall.currentBlockSet (host : Firewall) (v6 : Bool) : List IpAddr :=
  ((host v6 .input).map (listed shown .input)).filterMap fun line => parseWolfstackDropRule line .input

/-- The rules of a chain after a sweep has gone through a listing of it. -/
def sweepLines (protected_ : IpAddr → Bool) (chain : Chain) : List (List Char) → List IpAddr → List DropRule → List DropRule
  | [], _, rules => rules
  | line :: lines, healed, rules =>
    match parseWolfstackDropRule line chain with
    | some ip =>
      if protected_ ip = false ∨ ip ∈ healed then sweepLines protected_ chain lines healed rules
      else sweepLines protected_ chain lines (healed ++ [ip]) (removeDropRule ip rules)
    | none => sweepLines protected_ chain lines healed rules

def Firewall.sweepProtectedDropRules (host : Firewall) (protected_ : IpAddr → Bool) : Firewall :=
  fun v6 chain => sweepLines protected_ chain ((host v6 chain).map (listed shown chain)) [] (host v6 chain)

end

example : parseWolfstackDropRule "-A INPUT -s 192.0.2.7/32 -j DROP".toList .input = some (.v4 0xc0000207) := by decide +kernel

theorem mem_dropWhile {p : Char → Bool} {c : Char} {chars : List Char} (member : c ∈ chars) (stops : p c = false) :
    c ∈ chars.dropWhile p := by
  rw [← List.takeWhile_append_dropWhile (p := p) (l := chars), List.mem_append] at member
  obtain dropped | kept := member
  · rw [List.all_eq_true.mp List.all_takeWhile c dropped] at stops
    cases stops
  · exact kept

theorem mem_trim {c : Char} {chars : List Char} (member : c ∈ chars) (dark : isWhitespace c = false) :
    c ∈ (trim (String.ofList chars)).toList := by
  rw [trim, String.toList_ofList, String.toList_ofList, List.mem_reverse]
  apply mem_dropWhile _ dark
  rw [List.mem_reverse]
  exact mem_dropWhile member dark

theorem mem_splitAt {c d : Char} {front back first rest : List Char} (split : splitAt c (front ++ c :: back) = some (first, rest))
    (member : d ∈ back) : d ∈ rest := by
  rw [splitAt, List.dropWhile_append] at split
  cases early : front.dropWhile (· ≠ c) with
  | nil =>
    rw [early, List.isEmpty_nil, if_pos rfl, List.dropWhile_cons_of_neg (by simp), Option.some.injEq, Prod.mk.injEq] at split
    rw [← split.2]
    exact member
  | cons head more =>
    rw [early, List.isEmpty_cons, if_neg Bool.false_ne_true, List.cons_append, Option.some.injEq, Prod.mk.injEq] at split
    rw [← split.2]
    exact List.mem_append_right _ (List.mem_cons_of_mem _ member)

theorem dropPrefix_append (front chars : List Char) : dropPrefix front (front ++ chars) = some chars := by
  rw [dropPrefix, if_pos (List.prefix_append front chars), List.drop_left]

variable {shown : IpAddr → String}

theorem perIpRule_unread (chain : Chain) (ip : IpAddr) :
    parseWolfstackDropRule (listed shown chain (perIpRuleSpec ip)) chain = none := by
  have words : ["-m", "conntrack", "--ctstate", "NEW"].flatMap (fun word => ' ' :: word.toList) ++ (" -j ".toList ++ "DROP".toList) =
      ' ' :: "-m conntrack --ctstate NEW -j DROP".toList := by decide
  have line : listed shown chain (perIpRuleSpec ip) = "-A ".toList ++ (chain.name.toList ++ (" -s ".toList ++
      ((shown ip).toList ++ ('/' :: (toString (hostBits ip)).toList ++
        ' ' :: "-m conntrack --ctstate NEW -j DROP".toList)))) := by
    unfold listed
    dsimp only [perIpRuleSpec]
    simp only [List.append_assoc]
    rw [words]
  rw [Option.eq_none_iff_forall_ne_some]
  intro read parsed
  rw [line] at parsed
  simp only [parseWolfstackDropRule, dropPrefix_append, Option.bind_eq_bind, Option.bind_some] at parsed
  obtain ⟨⟨cidr, tail⟩, split, rest⟩ := Option.bind_eq_some_iff.mp parsed
  rw [← List.append_assoc] at split
  have stays : 'c' ∈ (trim (String.ofList tail)).toList :=
    mem_trim (mem_splitAt split (by decide)) (by decide)
  have other : trim (String.ofList tail) ≠ "-j DROP" := by
    intro same
    rw [same] at stays
    exact absurd stays (by decide)
  rw [if_pos other] at rest
  cases rest

section
variable {rule other : DropRule} {rules : List DropRule} {ip : IpAddr}

theorem deleteUpTo_sublist (tries : Nat) (rule : DropRule) (rules : List DropRule) :
    (deleteUpTo tries rule rules).Sublist rules := by
  induction tries generalizing rules with
  | zero => exact .refl rules
  | succ tries ih =>
    rw [deleteUpTo]
    split
    · exact (ih _).trans List.erase_sublist
    · exact .refl rules

theorem count_deleteUpTo (tries : Nat) (rule : DropRule) (rules : List DropRule) :
    (deleteUpTo tries rule rules).count rule = rules.count rule - tries := by
  induction tries generalizing rules with
  | zero => rfl
  | succ tries ih =>
    rw [deleteUpTo]
    split
    · rw [ih, List.count_erase_self]
      omega
    · rename_i missing
      rw [List.count_eq_zero_of_not_mem missing, Nat.zero_sub]

theorem count_deleteUpTo_other (tries : Nat) (rules : List DropRule) (apart : other ≠ rule) :
    (deleteUpTo tries rule rules).count other = rules.count other := by
  induction tries generalizing rules with
  | zero => rfl
  | succ tries ih =>
    rw [deleteUpTo]
    split
    · rw [ih, List.count_erase_of_ne apart]
    · rfl

theorem perIpRuleSpec_inj {ip other : IpAddr} (same : perIpRuleSpec ip = perIpRuleSpec other) : ip = other := by
  rw [perIpRuleSpec, perIpRuleSpec, DropRule.mk.injEq, Option.some.injEq, Prod.mk.injEq] at same
  exact same.1.1

theorem perIpRuleSpec_ne_legacy (ip other : IpAddr) : perIpRuleSpec ip ≠ legacyPerIpRuleSpec other := by
  intro same
  rw [perIpRuleSpec, legacyPerIpRuleSpec, DropRule.mk.injEq] at same
  cases same.2.1

theorem count_insertDropRule (other : IpAddr) (few : rules.count (perIpRuleSpec ip) ≤ 1) :
    (insertDropRule ip rules).count (perIpRuleSpec other) = if other = ip then 1 else rules.count (perIpRuleSpec other) := by
  rw [insertDropRule]
  split
  · rename_i present
    rw [removeLegacyPerIpRule, count_deleteUpTo_other _ _ (perIpRuleSpec_ne_legacy other ip)]
    split
    · rename_i same
      have some_ := List.count_pos_iff.mpr present
      subst same
      omega
    · rfl
  · rename_i missing
    rw [removeLegacyPerIpRule, count_deleteUpTo_other _ _ (perIpRuleSpec_ne_legacy other ip)]
    split
    · rename_i same
      rw [same, List.count_cons_self, List.count_eq_zero_of_not_mem missing]
    · rename_i apart
      exact List.count_cons_of_ne fun same => apart (perIpRuleSpec_inj same).symm

theorem count_removeDropRule (other : IpAddr) (few : rules.count (perIpRuleSpec ip) ≤ 1) :
    (removeDropRule ip rules).count (perIpRuleSpec other) = if other = ip then 0 else rules.count (perIpRuleSpec other) := by
  rw [removeDropRule, removeLegacyPerIpRule, count_deleteUpTo_other _ _ (perIpRuleSpec_ne_legacy other ip)]
  split
  · rename_i same
    rw [same, count_deleteUpTo]
    omega
  · rename_i apart
    exact count_deleteUpTo_other _ _ fun same => apart (perIpRuleSpec_inj same)

theorem mem_insertDropRule (member : rule ∈ insertDropRule ip rules) : rule = perIpRuleSpec ip ∨ rule ∈ rules := by
  rw [insertDropRule] at member
  split at member
  · exact .inr ((deleteUpTo_sublist _ _ _).subset member)
  · exact List.mem_cons.mp ((deleteUpTo_sublist _ _ _).subset member)

theorem mem_removeDropRule (member : rule ∈ removeDropRule ip rules) : rule ∈ rules :=
  (deleteUpTo_sublist _ _ _).subset ((deleteUpTo_sublist _ _ _).subset member)

end

inductive BlockCall where
  | kernelBlockIp (protected_ : IpAddr → Bool) (ip : String)
  | kernelUnblockIp (ip : String)

def Firewall.call (host : Firewall) : BlockCall → Firewall
  | .kernelBlockIp protected_ ip => host.kernelBlockIp protected_ ip
  | .kernelUnblockIp ip => host.kernelUnblockIp ip

def Firewall.run (host : Firewall) : List BlockCall → Firewall
  | [] => host
  | call :: calls => (host.call call).run calls

/-- The addresses that calls leave blocked, those that were blocked before included. -/
def standing (blocked : List IpAddr) : List BlockCall → List IpAddr
  | [] => blocked
  | .kernelBlockIp protected_ ip :: calls => match canonical ip with
    | some target => standing (if protected_ target || target ∈ blocked then blocked else target :: blocked) calls
    | none => standing blocked calls
  | .kernelUnblockIp ip :: calls => match canonical ip with
    | some target => standing (blocked.filter (· ≠ target)) calls
    | none => standing blocked calls

/-- No rule of the host is of WolfStack's making, nor read as one. -/
structure Foreign (shown : IpAddr → String) (host : Firewall) : Prop where
  unread : ∀ v6 chain, ∀ rule ∈ host v6 chain, parseWolfstackDropRule (listed shown chain rule) chain = none
  own : ∀ v6 chain ip, perIpRuleSpec ip ∉ host v6 chain ∧ legacyPerIpRuleSpec ip ∉ host v6 chain

/-- Blocked addresses have one rule in each chain of their family; nothing is read back. -/
structure Mirrors (shown : IpAddr → String) (host : Firewall) (blocked : List IpAddr) : Prop where
  unread : ∀ v6 chain, ∀ rule ∈ host v6 chain, parseWolfstackDropRule (listed shown chain rule) chain = none
  once : ∀ v6 chain ip, (host v6 chain).count (perIpRuleSpec ip) = if ip ∈ blocked ∧ v6 = ip.isV6 then 1 else 0
  current : ∀ v6 chain ip, legacyPerIpRuleSpec ip ∉ host v6 chain

variable {host : Firewall} {blocked : List IpAddr}

theorem Foreign.mirrors (foreign : Foreign shown host) : Mirrors shown host [] where
  unread := foreign.unread
  once v6 chain ip := by
    rw [List.count_eq_zero_of_not_mem (foreign.own v6 chain ip).1]
    simp
  current v6 chain ip := (foreign.own v6 chain ip).2

theorem Mirrors.few (mirrors : Mirrors shown host blocked) (v6 : Bool) (chain : Chain) (ip : IpAddr) :
    (host v6 chain).count (perIpRuleSpec ip) ≤ 1 := by
  rw [mirrors.once]
  split <;> omega

theorem Mirrors.blocking (mirrors : Mirrors shown host blocked) (target : IpAddr) :
    Mirrors shown (host.both target (insertDropRule target)) (if target ∈ blocked then blocked else target :: blocked) := by
  have member : ∀ ip, ip ∈ (if target ∈ blocked then blocked else target :: blocked) ↔ ip = target ∨ ip ∈ blocked := by
    intro ip
    split
    · rename_i known
      exact (or_iff_right_of_imp fun same => same ▸ known).symm
    · exact List.mem_cons
  constructor
  · intro v6 chain rule inside
    rw [Firewall.both] at inside
    split at inside
    · obtain rfl | before := mem_insertDropRule inside
      · exact perIpRule_unread chain target
      · exact mirrors.unread v6 chain rule before
    · exact mirrors.unread v6 chain rule inside
  · intro v6 chain ip
    simp only [member, Firewall.both]
    by_cases family : v6 = target.isV6
    · rw [if_pos family, count_insertDropRule ip (mirrors.few v6 chain target), mirrors.once]
      by_cases same : ip = target
      · simp [same, family]
      · simp [same]
    · rw [if_neg family, mirrors.once]
      by_cases same : ip = target
      · simp [same, family]
      · simp [same]
  · intro v6 chain ip inside
    rw [Firewall.both] at inside
    split at inside
    · obtain same | before := mem_insertDropRule inside
      · exact perIpRuleSpec_ne_legacy target ip same.symm
      · exact mirrors.current v6 chain ip before
    · exact mirrors.current v6 chain ip inside

theorem Mirrors.unblocking (mirrors : Mirrors shown host blocked) (target : IpAddr) :
    Mirrors shown (host.both target (removeDropRule target)) (blocked.filter (· ≠ target)) := by
  constructor
  · intro v6 chain rule inside
    rw [Firewall.both] at inside
    split at inside
    · exact mirrors.unread v6 chain rule (mem_removeDropRule inside)
    · exact mirrors.unread v6 chain rule inside
  · intro v6 chain ip
    rw [Firewall.both]
    by_cases family : v6 = target.isV6
    · rw [if_pos family, count_removeDropRule ip (mirrors.few v6 chain target), mirrors.once]
      by_cases same : ip = target
      · simp [same]
      · simp [same]
    · rw [if_neg family, mirrors.once]
      by_cases same : ip = target
      · simp [same, family]
      · simp [same]
  · intro v6 chain ip inside
    rw [Firewall.both] at inside
    split at inside
    · exact mirrors.current v6 chain ip (mem_removeDropRule inside)
    · exact mirrors.current v6 chain ip inside

theorem Mirrors.run (mirrors : Mirrors shown host blocked) (calls : List BlockCall) :
    Mirrors shown (host.run calls) (standing blocked calls) := by
  induction calls generalizing host blocked with
  | nil => exact mirrors
  | cons call calls ih =>
    cases call with
    | kernelBlockIp protected_ ip =>
      rw [Firewall.run, Firewall.call, Firewall.kernelBlockIp, standing]
      cases canonical ip with
      | none => exact ih mirrors
      | some target =>
        apply ih
        dsimp only
        cases guarded : protected_ target with
        | true =>
          rw [if_pos rfl, Bool.true_or, if_pos rfl]
          exact mirrors
        | false =>
          rw [if_neg Bool.false_ne_true, Bool.false_or]
          simpa only [decide_eq_true_eq] using mirrors.blocking target
    | kernelUnblockIp ip =>
      rw [Firewall.run, Firewall.call, Firewall.kernelUnblockIp, standing]
      cases canonical ip with
      | none => exact ih mirrors
      | some target => exact ih (mirrors.unblocking target)

/-- What is blocked is what is read back, and a sweep takes the rules of protected
addresses away. -/
structure ReadBack (shown : IpAddr → String) (host : Firewall) (blocked : List IpAddr) : Prop where
  exact : ∀ v6 ip, ip ∈ host.currentBlockSet shown v6 ↔ ip ∈ blocked ∧ v6 = ip.isV6
  swept : ∀ (protected_ : IpAddr → Bool) ip, protected_ ip = true → ∀ v6 chain,
    perIpRuleSpec ip ∉ host.sweepProtectedDropRules shown protected_ v6 chain ∧
      legacyPerIpRuleSpec ip ∉ host.sweepProtectedDropRules shown protected_ v6 chain

theorem Mirrors.currentBlockSet (mirrors : Mirrors shown host blocked) (v6 : Bool) : host.currentBlockSet shown v6 = [] := by
  rw [Firewall.currentBlockSet, List.filterMap_eq_nil_iff]
  intro line listing
  obtain ⟨rule, member, rfl⟩ := List.mem_map.mp listing
  exact mirrors.unread v6 .input rule member

theorem sweepLines_unread (protected_ : IpAddr → Bool) (chain : Chain) (lines : List (List Char)) (healed : List IpAddr)
    (rules : List DropRule) (unread : ∀ line ∈ lines, parseWolfstackDropRule line chain = none) :
    sweepLines protected_ chain lines healed rules = rules := by
  induction lines with
  | nil => rfl
  | cons line lines ih =>
    rw [List.forall_mem_cons] at unread
    rw [sweepLines, unread.1]
    exact ih unread.2

theorem Mirrors.sweep (mirrors : Mirrors shown host blocked) (protected_ : IpAddr → Bool) (v6 : Bool) (chain : Chain) :
    host.sweepProtectedDropRules shown protected_ v6 chain = host v6 chain := by
  rw [Firewall.sweepProtectedDropRules]
  apply sweepLines_unread
  intro line listing
  obtain ⟨rule, member, rfl⟩ := List.mem_map.mp listing
  exact mirrors.unread v6 chain rule member

/-- Calls leave a host that is read back correctly exactly when they leave nothing blocked. -/
theorem read_back_iff (foreign : Foreign shown host) (calls : List BlockCall) :
    ReadBack shown (host.run calls) (standing [] calls) ↔ standing [] calls = [] := by
  have mirrors := foreign.mirrors.run calls
  constructor
  · intro readBack
    rw [List.eq_nil_iff_forall_not_mem]
    intro ip blocked
    have found := (readBack.exact ip.isV6 ip).mpr ⟨blocked, rfl⟩
    rw [mirrors.currentBlockSet] at found
    cases found
  · intro none_
    rw [none_] at mirrors ⊢
    constructor
    · intro v6 ip
      simp [mirrors.currentBlockSet]
    · intro protected_ ip _ v6 chain
      rw [mirrors.sweep]
      refine ⟨?_, mirrors.current v6 chain ip⟩
      rw [← List.count_eq_zero, mirrors.once]
      simp

def emptyFirewall : Firewall := fun _ _ => []

theorem emptyFirewall_foreign (shown : IpAddr → String) : Foreign shown emptyFirewall where
  unread _ _ rule member := by cases member
  own _ _ ip := ⟨List.not_mem_nil, List.not_mem_nil⟩

def unguarded (ip : String) : BlockCall := .kernelBlockIp (fun _ => false) ip

theorem read_back_iff_sample :
    ReadBack (fun _ => "192.0.2.7") (emptyFirewall.run [unguarded "192.0.2.7", .kernelUnblockIp "192.0.2.7"])
      (standing [] [unguarded "192.0.2.7", .kernelUnblockIp "192.0.2.7"]) :=
  (read_back_iff (emptyFirewall_foreign _) _).mpr (by decide +kernel)

/-- One address is blocked, and neither the block set nor the sweep knows its rule. -/
theorem blocked_unread :
    ¬ReadBack (fun _ => "192.0.2.7") (emptyFirewall.run [unguarded "192.0.2.7"]) (standing [] [unguarded "192.0.2.7"]) := by
  intro readBack
  have found := (readBack.exact false (.v4 0xc0000207)).mpr ⟨by decide +kernel, rfl⟩
  exact absurd found (by decide +kernel)

end Auth
