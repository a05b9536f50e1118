import WolfStack.Effects.RoundRobin
import WolfStack.Router.Lines

/-! The rules that spread the connections to a VIP over its backends, and what the kernel makes of
them. Routes, forwarding and what else is set up for a VIP are left out. -/

namespace WolfRun
open Router RoundRobin

inductive Statistic where
  | nth (every : Nat)
  /-- With one chance in so many. -/
  | random (among : Nat)
deriving DecidableEq, Repr

structure DnatSpec where
  vip : String
  dports : List (List Char)
  statistic : Option Statistic
  backend : String
  port : Option (List Char)

def lbPort (p : List Char) : List Char :=
  match splitOnce ':' p with
  | some (_, container) => container
  | none => p

def dnatSpecs (vip : String) (backendIps : List String) (ports : List (List Char)) (lbPolicy : String) : List DnatSpec :=
  let n := backendIps.length
  let lbPorts := ports.map lbPort
  backendIps.zipIdx.map fun (backend, i) =>
    let remaining := n - i
    { vip := vip
      dports := lbPorts
      statistic := if 1 < remaining then some (if lbPolicy = "ip_hash" then .random remaining else .nth remaining) else none
      backend := backend
      port := lbPorts.head? }

structure DnatRule where
  vip : String
  dports : List Nat
  statistic : Option Statistic
  backend : String
  port : Option Nat
deriving DecidableEq, Repr

def readPort (text : List Char) : Option Nat := (parseU32 text).filter fun n => 0 < n ∧ n ≤ 65535

/-- Fifteen ports are the most that one rule can have. -/
def DnatSpec.accepted (spec : DnatSpec) : Option DnatRule :=
  if 15 < spec.dports.length then none
  else match spec.dports.mapM readPort, spec.port.mapM readPort with
    | some dports, some port => some ⟨spec.vip, dports, spec.statistic, spec.backend, port⟩
    | _, _ => none

inductive Origin where
  | external
  | local_
deriving DecidableEq, Repr

/-- PREROUTING and OUTPUT have the same rules. -/
def rebuildLbRules (vip : String) (backendIps : List String) (ports : List (List Char)) (lbPolicy : String) : Origin → List DnatRule :=
  fun _ => (dnatSpecs vip backendIps ports lbPolicy).filterMap DnatSpec.accepted

structure Connection where
  origin : Origin
  address : String
  port : Nat

def DnatRule.applies (rule : DnatRule) (c : Connection) : Bool :=
  c.address = rule.vip && (rule.dports.isEmpty || c.port ∈ rule.dports)

section
variable (draws : DnatRule → Nat → Bool)

def DnatRule.takes (rule : DnatRule) (reached : Nat) : Bool :=
  match rule.statistic with
  | none => true
  | some (.nth every) => reached % every = 0
  | some (.random _) => draws rule reached

/-- Where a chain sends a connection. Each rule has a count of what has reached its last match. -/
def translate : List (DnatRule × Nat) → Connection → List (DnatRule × Nat) × Option (String × Nat)
  | [], _ => ([], none)
  | (rule, reached) :: rest, c =>
    if rule.applies c then
      if rule.takes draws reached then ((rule, reached + 1) :: rest, some (rule.backend, rule.port.getD c.port))
      else
        let after := translate rest c
        ((rule, reached + 1) :: after.1, after.2)
    else
      let after := translate rest c
      ((rule, reached) :: after.1, after.2)

def chainsAt (rules : Origin → List DnatRule) (conns : Nat → Connection) : Nat → Origin → List (DnatRule × Nat)
  | 0 => fun origin => (rules origin).map fun rule => (rule, 0)
  | i + 1 =>
    let chains := chainsAt rules conns i
    Function.update chains (conns i).origin (translate draws (chains (conns i).origin) (conns i)).1

def destination (rules : Origin → List DnatRule) (conns : Nat → Connection) (i : Nat) : Option (String × Nat) :=
  (translate draws (chainsAt draws rules conns i (conns i).origin) (conns i)).2

end

structure ServicePort where
  host : Option (List Char)
  container : Nat
  plain : ∀ h ∈ host, ':' ∉ h
  valid : 0 < container ∧ container ≤ 65535

def ServicePort.text (p : ServicePort) : List Char :=
  match p.host with
  | some host => host ++ ':' :: Nat.toDigits 10 p.container
  | none => Nat.toDigits 10 p.container

structure Backends where
  ips : List String
  some_ : ips ≠ []
  distinct : ips.Nodup

structure Traffic (vip : String) (ports : List ServicePort) where
  conns : Nat → Connection
  addressed : ∀ i, (conns i).address = vip
  served : ∀ i, ports = [] ∨ ∃ p ∈ ports, (conns i).port = p.container

section
variable (draws : DnatRule → Nat → Bool) {vip : String} {ports : List ServicePort} (backends : Backends) (traffic : Traffic vip ports)

def sentTo (i : Nat) : Option (String × Nat) :=
  destination draws (rebuildLbRules vip backends.ips (ports.map ServicePort.text) "round_robin") traffic.conns i

/-- Each connection keeps its port, and of so many times as many connections as there are backends
in a row each backend gets so many. -/
structure Balances : Prop where
  keeps : ∀ i, ∃ b ∈ backends.ips, sentTo draws backends traffic i = some (b, (traffic.conns i).port)
  fair : ∀ start k, ∀ b ∈ backends.ips, ((Finset.Ico start (start + backends.ips.length * k)).filter fun i =>
    (sentTo draws backends traffic i).map Prod.fst = some b).card = k

end

variable {vip : String} {ports : List ServicePort} {bs : List String} {dports : List Nat} {port : Option Nat} {t : Nat} {c : Connection}
  {draws : DnatRule → Nat → Bool}

/-- The rules for some backends, each with its count when so many connections have reached the first. -/
def countedRules (vip : String) (dports : List Nat) (port : Option Nat) : List String → Nat → List (DnatRule × Nat)
  | [], _ => []
  | b :: rest, t =>
    (⟨vip, dports, if 0 < rest.length then some (.nth (rest.length + 1)) else none, b, port⟩, t) ::
      countedRules vip dports port rest (passed (rest.length + 1) t)

theorem lbPort_text (p : ServicePort) : lbPort p.text = Nat.toDigits 10 p.container := by
  have plain : ':' ∉ Nat.toDigits 10 p.container := fun member =>
    absurd (Nat.isDigit_of_mem_toDigits (by decide) (by decide) member) (by decide)
  unfold lbPort ServicePort.text
  cases given : p.host with
  | none =>
    dsimp only
    rw [splitOnce_plain plain]
  | some host =>
    dsimp only
    rw [splitOnce_append (p.plain host given)]

theorem readPort_container (p : ServicePort) : readPort (Nat.toDigits 10 p.container) = some p.container := by
  obtain ⟨low, high⟩ := p.valid
  rw [readPort, parseU32_toDigits (by omega), Option.filter_some_pos (by simpa using p.valid)]

theorem accepted_spec (few : ports.length ≤ 15) (statistic : Option Statistic) (b : String) :
    (DnatSpec.mk vip (ports.map fun p => Nat.toDigits 10 p.container) statistic b (ports.map fun p => Nat.toDigits 10 p.container).head?).accepted =
      some ⟨vip, ports.map (·.container), statistic, b, (ports.map (·.container)).head?⟩ := by
  have dports : (ports.map fun p => Nat.toDigits 10 p.container).mapM readPort = some (ports.map (·.container)) := by
    clear few
    induction ports with
    | nil => rfl
    | cons p ports ih => simp [readPort_container, ih]
  have port : (ports.map fun p => Nat.toDigits 10 p.container).head?.mapM readPort = some (ports.map (·.container)).head? := by
    cases ports with
    | nil => rfl
    | cons p ports => simp [readPort_container]
  unfold DnatSpec.accepted
  dsimp only
  rw [if_neg (by simpa using few), dports, port]

theorem refused_spec (many : 15 < ports.length) (statistic : Option Statistic) (b : String) (port : Option (List Char)) :
    (DnatSpec.mk vip (ports.map fun p => Nat.toDigits 10 p.container) statistic b port).accepted = none := by
  unfold DnatSpec.accepted
  exact if_pos (by simpa using many)

theorem dnatSpecs_eq (vip : String) (bs : List String) (ports : List ServicePort) : dnatSpecs vip bs (ports.map ServicePort.text) "round_robin" =
    bs.zipIdx.map fun (b, i) => ⟨vip, ports.map fun p => Nat.toDigits 10 p.container,
      if 1 < bs.length - i then some (.nth (bs.length - i)) else none, b, (ports.map fun p => Nat.toDigits 10 p.container).head?⟩ := by
  have texts : (ports.map ServicePort.text).map lbPort = ports.map fun p => Nat.toDigits 10 p.container := by
    rw [List.map_map]
    exact List.map_congr_left fun p _ => lbPort_text p
  have turns : ∀ n : Nat, (if "round_robin" = "ip_hash" then Statistic.random n else .nth n) = .nth n := fun n => if_neg (by decide)
  unfold dnatSpecs
  simp only [texts, turns]

theorem rebuildLbRules_few (few : ports.length ≤ 15) (bs : List String) (origin : Origin) :
    (rebuildLbRules vip bs (ports.map ServicePort.text) "round_robin" origin).map (fun rule => (rule, 0)) =
      countedRules vip (ports.map (·.container)) (ports.map (·.container)).head? bs 0 := by
  have from_ : ∀ (bs : List String) (k : Nat), ((bs.zipIdx k).map fun (b, i) =>
        ((⟨vip, ports.map (·.container), if 1 < k + bs.length - i then some (.nth (k + bs.length - i)) else none, b,
          (ports.map (·.container)).head?⟩ : DnatRule), 0)) =
      countedRules vip (ports.map (·.container)) (ports.map (·.container)).head? bs 0 := by
    intro bs
    induction bs with
    | nil => exact fun k => rfl
    | cons b bs ih =>
      intro k
      have remaining : k + (b :: bs).length - k = bs.length + 1 := by
        rw [List.length_cons]
        omega
      have later := ih (k + 1)
      have total : k + 1 + bs.length = k + (b :: bs).length := by
        rw [List.length_cons]
        omega
      rw [total] at later
      rw [List.zipIdx_cons, List.map_cons, later, countedRules, passed_zero]
      dsimp only
      simp only [remaining, Nat.lt_add_left_iff_pos]
  have all := from_ bs 0
  rw [Nat.zero_add] at all
  rw [← all, rebuildLbRules, dnatSpecs_eq, List.filterMap_map, List.map_filterMap, List.filterMap_eq_map_iff_forall_eq_some]
  rintro ⟨b, i⟩ -
  dsimp only [Function.comp]
  rw [accepted_spec few]
  rfl

theorem rebuildLbRules_many (many : 15 < ports.length) (bs : List String) (origin : Origin) :
    rebuildLbRules vip bs (ports.map ServicePort.text) "round_robin" origin = [] := by
  rw [rebuildLbRules, dnatSpecs_eq, List.filterMap_map, List.filterMap_eq_nil_iff]
  rintro ⟨b, i⟩ -
  exact refused_spec many _ _ _

theorem translate_counted (addressed : c.address = vip) (served : dports = [] ∨ c.port ∈ dports) (bs : List String) (t : Nat) :
    translate draws (countedRules vip dports port bs t) c =
      (countedRules vip dports port bs (t + 1), (bs[t % bs.length]?).map fun b => (b, port.getD c.port)) := by
  have applies : ∀ statistic b, (DnatRule.mk vip dports statistic b port).applies c = true := by
    intro statistic b
    rw [DnatRule.applies, decide_eq_true addressed, Bool.true_and]
    rcases served with none_ | listed
    · rw [none_]
      rfl
    · rw [decide_eq_true listed, Bool.or_true]
  induction bs generalizing t with
  | nil => rfl
  | cons b rest ih =>
    rw [countedRules, translate, if_pos (applies _ b)]
    rcases Nat.eq_zero_or_pos rest.length with alone | more
    · obtain rfl := List.eq_nil_of_length_eq_zero alone
      rw [List.length_singleton, Nat.mod_one]
      rfl
    · rw [if_pos more, DnatRule.takes]
      dsimp only
      by_cases turn : t % (rest.length + 1) = 0
      · rw [if_pos (decide_eq_true turn), List.length_cons, turn, countedRules, passed_taken (Nat.succ_pos _) turn, if_pos more]
        rfl
      · have index : passed (rest.length + 1) t % rest.length = t % (rest.length + 1) - 1 := passed_mod (Nat.succ_pos _) turn
        obtain ⟨r, left⟩ := Nat.exists_eq_succ_of_ne_zero turn
        rw [if_neg (by simpa using turn), ih, index, countedRules, passed_through (Nat.succ_pos _) turn, if_pos more, List.length_cons, left]
        rfl

section
variable {backends : Backends} {traffic : Traffic vip ports}

def Traffic.origins (traffic : Traffic vip ports) (i : Nat) : Origin := (traffic.conns i).origin

theorem Traffic.listed (traffic : Traffic vip ports) (i : Nat) :
    ports.map (·.container) = [] ∨ (traffic.conns i).port ∈ ports.map (·.container) := by
  obtain none_ | ⟨p, member, same⟩ := traffic.served i
  · exact .inl (by rw [none_]; rfl)
  · exact .inr (List.mem_map.mpr ⟨p, member, same.symm⟩)

theorem chainsAt_counted (few : ports.length ≤ 15) (i : Nat) (origin : Origin) :
    chainsAt draws (rebuildLbRules vip backends.ips (ports.map ServicePort.text) "round_robin") traffic.conns i origin =
      countedRules vip (ports.map (·.container)) (ports.map (·.container)).head? backends.ips
        (Nat.count (fun j => traffic.origins j = origin) i) := by
  induction i generalizing origin with
  | zero => exact rebuildLbRules_few few backends.ips origin
  | succ i ih =>
    rw [chainsAt, Nat.count_succ]
    change _ = countedRules _ _ _ _ (_ + if (traffic.conns i).origin = origin then 1 else 0)
    by_cases same : origin = (traffic.conns i).origin
    · rw [same, Function.update_self, ih, translate_counted (traffic.addressed i) (traffic.listed i), if_pos rfl]
    · rw [Function.update_of_ne same, ih, if_neg (Ne.symm same), Nat.add_zero]

theorem sentTo_few (few : ports.length ≤ 15) (i : Nat) : sentTo draws backends traffic i =
    (backends.ips[before traffic.origins i % backends.ips.length]?).map fun b =>
      (b, (ports.map (·.container)).head?.getD (traffic.conns i).port) := by
  rw [sentTo, destination, chainsAt_counted few, translate_counted (traffic.addressed i) (traffic.listed i)]
  rfl

theorem sentTo_many (many : 15 < ports.length) (i : Nat) : sentTo draws backends traffic i = none := by
  have empty : ∀ i origin, chainsAt draws (rebuildLbRules vip backends.ips (ports.map ServicePort.text) "round_robin") traffic.conns i origin = [] := by
    intro i
    induction i with
    | zero =>
      intro origin
      change (rebuildLbRules _ _ _ _ origin).map _ = []
      rw [rebuildLbRules_many many]
      rfl
    | succ i ih =>
      intro origin
      rw [chainsAt, ih]
      by_cases same : origin = (traffic.conns i).origin
      · rw [same, Function.update_self]
        rfl
      · rw [Function.update_of_ne same, ih]
  rw [sentTo, destination, empty]
  rfl

theorem Backends.positive (backends : Backends) : 0 < backends.ips.length := List.length_pos_of_ne_nil backends.some_

theorem sentTo_backend (few : ports.length ≤ 15) {i r : Nat} (small : r < backends.ips.length) :
    (sentTo draws backends traffic i).map Prod.fst = some backends.ips[r] ↔ before traffic.origins i % backends.ips.length = r := by
  have inside := Nat.mod_lt (before traffic.origins i) backends.positive
  rw [sentTo_few few, Option.map_map, List.getElem?_eq_getElem inside, Option.map_some]
  constructor
  · intro same
    exact (List.Nodup.getElem_inj_iff backends.distinct).mp (Option.some.inj same)
  · intro same
    subst same
    rfl

theorem Balances.few (balances : Balances draws backends traffic) : ports.length ≤ 15 := by
  by_contra many
  obtain ⟨b, -, sent⟩ := balances.keeps 0
  rw [sentTo_many (Nat.lt_of_not_le many)] at sent
  cases sent

theorem Balances.first (balances : Balances draws backends traffic) :
    ∀ p ∈ ports.head?, ∀ i, (traffic.conns i).port = p.container := by
  intro p head i
  obtain ⟨b, -, sent⟩ := balances.keeps i
  rw [sentTo_few balances.few, List.head?_map, head] at sent
  obtain ⟨_, -, same⟩ := Option.map_eq_some_iff.mp sent
  exact (Prod.ext_iff.mp same).2.symm

theorem Balances.aligned (balances : Balances draws backends traffic) : Aligned backends.ips.length traffic.origins := by
  apply aligned_of_single backends.positive
  intro i j block first also
  have positive := backends.positive
  have once := balances.fair (backends.ips.length * (i / backends.ips.length)) 1 backends.ips[0] (List.getElem_mem positive)
  obtain ⟨x, only⟩ := Finset.card_eq_one.mp once
  have inside : ∀ k, k / backends.ips.length = i / backends.ips.length → before traffic.origins k % backends.ips.length = 0 → k = x := by
    intro k here turn
    have parts := Nat.div_add_mod k backends.ips.length
    have small := Nat.mod_lt k backends.positive
    rw [here] at parts
    have member : k ∈ ({x} : Finset Nat) := by
      rw [← only, Finset.mem_filter, Finset.mem_Ico, sentTo_backend balances.few]
      refine ⟨⟨?_, ?_⟩, turn⟩ <;> omega
    exact Finset.mem_singleton.mp member
  rw [inside i rfl first, inside j block.symm also]

/-- Connections are shared fairly and keep their ports exactly where all are to the first port of
the service, it has no more than fifteen, and as many in a row as there are backends come by the
same chain. -/
theorem balances_iff (draws : DnatRule → Nat → Bool) (backends : Backends) (traffic : Traffic vip ports) : Balances draws backends traffic ↔
    ports.length ≤ 15 ∧ (∀ p ∈ ports.head?, ∀ i, (traffic.conns i).port = p.container) ∧ Aligned backends.ips.length traffic.origins := by
  constructor
  · exact fun balances => ⟨balances.few, balances.first, balances.aligned⟩
  · rintro ⟨few, first, aligned⟩
    constructor
    · intro i
      have inside := Nat.mod_lt (before traffic.origins i) backends.positive
      refine ⟨_, List.getElem_mem inside, ?_⟩
      rw [sentTo_few few, List.getElem?_eq_getElem inside, Option.map_some]
      cases head : ports.head? with
      | none => rw [List.head?_map, head]; rfl
      | some p => rw [List.head?_map, head, first p head i]; rfl
    · intro start k b member
      obtain ⟨r, small, rfl⟩ := List.getElem_of_mem member
      simp only [sentTo_backend few small, aligned.before_mod backends.positive]
      exact card_window small start k

end

def oneBackend : Backends := ⟨["10.10.10.101"], by decide, by decide⟩

def twoPorts : List ServicePort := [⟨some "8080".toList, 80, by decide, by decide⟩, ⟨none, 443, by decide, by decide⟩]

/-- Connections to the second port. -/
def secure : Traffic "10.10.10.5" twoPorts where
  conns _ := ⟨.external, "10.10.10.5", 443⟩
  addressed _ := rfl
  served _ := .inr ⟨_, List.mem_cons_of_mem _ List.mem_cons_self, rfl⟩

/-- What is for port 443 goes to port 80. -/
theorem balances_second : ¬Balances (fun _ _ => false) oneBackend secure := by
  intro balances
  exact absurd (balances.first _ rfl 0) (by decide)

end WolfRun
