import WolfStack.Router.Routes
import Mathlib.Data.List.Pairwise

/-! The list of WolfNet peers in `/etc/wolfnet/config.toml`, after `networking/mod.rs`: what
adding and editing a peer make of it, and when the peers stay apart. -/

namespace Networking
open Router

/-- An entry of `[[peers]]`, of which each key may be missing. -/
structure WolfnetPeer where
  name : Option String
  publicKey : Option String
  endpoint : Option String
  allowedIp : Option String
deriving DecidableEq, Repr, Inhabited

/-- The configuration as it is read, and the names of the peers that were removed. -/
structure WolfnetConfig where
  address : Option String
  peers : List WolfnetPeer
  tombstones : List String
deriving DecidableEq, Repr

inductive PeerEndpoint where
  | set (endpoint : String)
  | clear
  | preserve
deriving DecidableEq, Repr

def bare (ip : String) : String := String.ofList (ip.toList.takeWhile (· ≠ '/'))

def parseAddr (ip : String) : Option (BitVec 32) := parseIpv4 ip.toList

namespace WolfnetConfig

def selfWnIp (c : WolfnetConfig) : Option (BitVec 32) := c.address.bind parseAddr

def tombstoneRemove (c : WolfnetConfig) (name : String) : WolfnetConfig := { c with tombstones := c.tombstones.filter (· ≠ name) }

/-- `write_wolfnet_config_atomic`, after which the daemon reads its peers again. A write that
fails leaves the file as it is. -/
def save (c : WolfnetConfig) (write : Except String Unit) (peers : List WolfnetPeer) (message : String) :
    Except String String × WolfnetConfig :=
  match write with
  | .ok _ => (.ok message, { c with peers := peers })
  | .error e => (.error e, c)

end WolfnetConfig

def WolfnetPeer.known (name ip : String) (publicKey : Option String) (p : WolfnetPeer) : Bool :=
  p.name = some name || (publicKey.any fun pk => pk ≠ "" && p.publicKey = some pk) || (ip ≠ "" && p.allowedIp.any fun pip => bare pip = ip)

def PeerEndpoint.apply (endpoint : PeerEndpoint) (old : Option String) : Option String :=
  match endpoint with
  | .set s => if s ≠ "" then some s else old
  | .clear => none
  | .preserve => old

def PeerEndpoint.clears (endpoint : PeerEndpoint) (old : Option String) : Bool :=
  match endpoint with
  | .clear => old.isSome
  | _ => false

def nonEmpty (text : Option String) : Option String := text.filter (· ≠ "")

def reloaded (cleared : Bool) : String := if cleared then "restarted" else "reloaded"

def addWolfnetPeer (c : WolfnetConfig) (write : Except String Unit) (name : String) (endpoint : PeerEndpoint) (ip : String)
    (publicKey : Option String) : Except String String × WolfnetConfig :=
  let ip := bare ip
  if c.selfWnIp.isSome && parseAddr ip = c.selfWnIp then
    (.error s!"Refusing to add '{name}' as a WolfNet peer: {ip} is this node's own WolfNet address (self-peer)", c)
  else
    match c.peers.findIdx? (WolfnetPeer.known name ip publicKey) with
    | some idx =>
      let peer := c.peers[idx]!
      let updated := { peer with name := some name, endpoint := endpoint.apply peer.endpoint }
      if updated = peer then (.error s!"Peer '{name}' already exists (no changes needed)", c)
      else c.save write (c.peers.set idx updated) s!"Peer '{name}' updated and WolfNet {reloaded (endpoint.clears peer.endpoint)}"
    | none =>
      let added := ⟨some name, nonEmpty publicKey, endpoint.apply none, nonEmpty (some ip)⟩
      (c.tombstoneRemove name).save write (c.peers ++ [added]) s!"Peer '{name}' added and WolfNet restarted"

def editWolfnetPeer (c : WolfnetConfig) (write : Except String Unit) (oldName newName ip : String) (endpoint : PeerEndpoint)
    (publicKey : Option String) : Except String String × WolfnetConfig :=
  let ip := bare ip
  if ip ≠ "" && c.selfWnIp.isSome && parseAddr ip = c.selfWnIp then
    (.error s!"Refusing to set peer '{newName}' to {ip}: that is this node's own WolfNet address (self-peer)", c)
  else
    match c.peers.findIdx? fun p => p.name = some oldName with
    | some idx =>
      let peer := c.peers[idx]!
      let updated : WolfnetPeer :=
        { name := some newName
          publicKey := (nonEmpty publicKey).or peer.publicKey
          endpoint := endpoint.apply peer.endpoint
          allowedIp := (nonEmpty (some ip)).or peer.allowedIp }
      let freed := (if newName ≠ oldName then c.tombstoneRemove oldName else c).tombstoneRemove newName
      freed.save write (c.peers.set idx updated) s!"Peer '{newName}' updated and WolfNet {reloaded (endpoint.clears peer.endpoint)}"
    | none => (.error s!"Peer '{oldName}' not found in WolfNet config (a discovered/relay peer is pinned via Add, not Edit)", c)

def WolfnetPeer.bareIp (p : WolfnetPeer) : Option String := p.allowedIp.map bare

structure Unlike (p q : WolfnetPeer) : Prop where
  name : ∀ n, p.name = some n → q.name ≠ some n
  key : ∀ k, nonEmpty p.publicKey = some k → nonEmpty q.publicKey ≠ some k
  ip : ∀ a, p.bareIp = some a → q.bareIp ≠ some a

theorem Unlike.symm {p q : WolfnetPeer} (apart : Unlike p q) : Unlike q p :=
  ⟨fun n first second => apart.name n second first, fun k first second => apart.key k second first, fun a first second => apart.ip a second first⟩

instance : Std.Symm Unlike := ⟨fun _ _ => Unlike.symm⟩

namespace WolfnetConfig

def Unique (c : WolfnetConfig) : Prop := c.peers.Pairwise Unlike

def NoSelf (c : WolfnetConfig) : Prop := ∀ p ∈ c.peers, ∀ own, c.selfWnIp = some own → p.bareIp.bind parseAddr ≠ some own

structure Sound (c : WolfnetConfig) : Prop where
  unique : c.Unique
  noSelf : c.NoSelf

end WolfnetConfig

inductive PeerCall where
  | add (write : Except String Unit) (name : String) (endpoint : PeerEndpoint) (ip : String) (publicKey : Option String)
  | edit (write : Except String Unit) (oldName newName ip : String) (endpoint : PeerEndpoint) (publicKey : Option String)

def PeerCall.run (c : WolfnetConfig) : PeerCall → WolfnetConfig
  | .add write name endpoint ip publicKey => (addWolfnetPeer c write name endpoint ip publicKey).2
  | .edit write oldName newName ip endpoint publicKey => (editWolfnetPeer c write oldName newName ip endpoint publicKey).2

def WolfnetConfig.runs (c : WolfnetConfig) (calls : List PeerCall) : WolfnetConfig := calls.foldl PeerCall.run c

def Finds (known : WolfnetPeer → Bool) (peers front : List WolfnetPeer) (p : WolfnetPeer) (back : List WolfnetPeer) : Prop :=
  peers = front ++ p :: back ∧ known p = true ∧ ∀ q ∈ front, known q = false

/-- The address that is meant is the node's own, so the call is refused. -/
def Refused (c : WolfnetConfig) (ip : String) : Prop := parseAddr (bare ip) = c.selfWnIp ∧ c.selfWnIp ≠ none

/-- No other entry has the name that the entry which is found is given and, in an edit, the
address or the key. -/
def PeerCall.Proper (c : WolfnetConfig) : PeerCall → Prop
  | .add write name _ ip publicKey =>
    write.isOk = false ∨ Refused c ip ∨
      ∀ front p back, Finds (WolfnetPeer.known name (bare ip) publicKey) c.peers front p back → ∀ q ∈ back, q.name ≠ some name
  | .edit write oldName newName ip _ publicKey =>
    write.isOk = false ∨ Refused c ip ∨
      ∀ front p back, Finds (fun p => p.name = some oldName) c.peers front p back → ∀ q ∈ front ++ back,
        q.name ≠ some newName ∧ (bare ip ≠ "" → q.bareIp ≠ some (bare ip)) ∧ ∀ k, nonEmpty publicKey = some k → q.publicKey ≠ some k

section

variable {α : Type} {R : α → α → Prop} [Std.Symm R] {front back : List α} {x y : α}

theorem pairwise_replace (apart : (front ++ x :: back).Pairwise R) : (front ++ y :: back).Pairwise R ↔ ∀ z ∈ front ++ back, R y z := by
  rw [List.pairwise_middle fun related => Std.Symm.symm _ _ related] at apart ⊢
  rw [List.pairwise_cons]
  exact and_iff_left (List.pairwise_cons.mp apart).2

theorem pairwise_push (apart : front.Pairwise R) : (front ++ [y]).Pairwise R ↔ ∀ z ∈ front, R y z := by
  rw [List.pairwise_middle fun related => Std.Symm.symm _ _ related, List.append_nil, List.pairwise_cons]
  exact and_iff_left apart

end

theorem finds_iff {known : WolfnetPeer → Bool} {peers : List WolfnetPeer} {idx : Nat} :
    peers.findIdx? known = some idx ↔ ∃ front p back, Finds known peers front p back ∧ front.length = idx := by
  induction peers generalizing idx with
  | nil =>
    constructor
    · rintro ⟨⟩
    · rintro ⟨front, p, back, ⟨shape, -⟩, -⟩
      simp at shape
  | cons first peers ih =>
    rw [List.findIdx?_cons]
    split
    next here =>
      constructor
      · intro same
        cases same
        exact ⟨[], first, peers, ⟨rfl, here, by simp⟩, rfl⟩
      · rintro ⟨front, p, back, ⟨shape, known_, unknown⟩, rfl⟩
        cases front with
        | nil => rfl
        | cons q front =>
          obtain ⟨rfl, -⟩ := List.cons.inj shape
          rw [unknown _ List.mem_cons_self] at here
          cases here
    next elsewhere =>
      rw [Option.map_eq_some_iff]
      constructor
      · rintro ⟨idx, found, rfl⟩
        obtain ⟨front, p, back, ⟨rfl, known_, unknown⟩, rfl⟩ := ih.mp found
        exact ⟨first :: front, p, back, ⟨rfl, known_, List.forall_mem_cons.mpr ⟨Bool.eq_false_iff.mpr elsewhere, unknown⟩⟩, rfl⟩
      · rintro ⟨front, p, back, ⟨shape, known_, unknown⟩, rfl⟩
        cases front with
        | nil =>
          obtain ⟨rfl, -⟩ := List.cons.inj shape
          exact absurd known_ elsewhere
        | cons q front =>
          obtain ⟨rfl, rest⟩ := List.cons.inj shape
          exact ⟨front.length, ih.mpr ⟨front, p, back, ⟨rest, known_, (List.forall_mem_cons.mp unknown).2⟩, rfl⟩, rfl⟩

variable {c : WolfnetConfig} {write : Except String Unit} {name oldName newName ip : String} {endpoint : PeerEndpoint}
  {publicKey : Option String} {front back : List WolfnetPeer} {p : WolfnetPeer} {known : WolfnetPeer → Bool}

theorem Finds.get {peers : List WolfnetPeer} (finds : Finds known peers front p back) : peers[front.length]! = p := by
  rw [finds.1, List.getElem!_eq_getElem?_getD, List.getElem?_append_right (Nat.le_refl _), Nat.sub_self]
  rfl

theorem Finds.set {peers : List WolfnetPeer} (finds : Finds known peers front p back) (q : WolfnetPeer) :
    peers.set front.length q = front ++ q :: back := by
  rw [finds.1, List.set_append_right _ _ (Nat.le_refl _), Nat.sub_self]
  rfl

theorem save_peers (peers : List WolfnetPeer) (message : String) :
    (c.save write peers message).2.peers = if write.isOk then peers else c.peers := by
  cases write <;> rfl

theorem refused_iff : Refused c ip ↔ (c.selfWnIp.isSome && parseAddr (bare ip) = c.selfWnIp) = true := by
  rw [Refused, Bool.and_eq_true, Option.isSome_iff_ne_none, decide_eq_true_iff, and_comm]

theorem refused_some (refused : Refused c ip) : bare ip ≠ "" := by
  intro empty
  have nothing : parseAddr (bare ip) = none := by
    rw [empty]
    decide
  exact refused.2 (refused.1 ▸ nothing)

theorem add_refused (refused : Refused c ip) : PeerCall.run c (.add write name endpoint ip publicKey) = c := by
  have first := refused_iff.mp refused
  rw [PeerCall.run, addWolfnetPeer]
  dsimp only
  rw [if_pos first]

theorem add_found (open_ : ¬Refused c ip) (finds : Finds (WolfnetPeer.known name (bare ip) publicKey) c.peers front p back) :
    (PeerCall.run c (.add write name endpoint ip publicKey)).peers =
      if write.isOk then front ++ { p with name := some name, endpoint := endpoint.apply p.endpoint } :: back else c.peers := by
  have index := finds_iff.mpr ⟨front, p, back, finds, rfl⟩
  rw [PeerCall.run, addWolfnetPeer]
  dsimp only
  rw [if_neg (fun first => open_ (refused_iff.mpr first)), index]
  dsimp only
  rw [finds.get, finds.set]
  split
  next same =>
    rw [same, ← finds.1, ite_self]
  next => exact save_peers _ _

theorem add_new (open_ : ¬Refused c ip) (unknown : ∀ q ∈ c.peers, q.known name (bare ip) publicKey = false) :
    (PeerCall.run c (.add write name endpoint ip publicKey)).peers =
      if write.isOk then c.peers ++ [⟨some name, nonEmpty publicKey, endpoint.apply none, nonEmpty (some (bare ip))⟩] else c.peers := by
  have index : c.peers.findIdx? (WolfnetPeer.known name (bare ip) publicKey) = none :=
    List.findIdx?_eq_none_iff.mpr fun q member => unknown q member
  rw [PeerCall.run, addWolfnetPeer]
  dsimp only
  rw [if_neg (fun first => open_ (refused_iff.mpr first)), index]
  exact save_peers _ _

theorem edit_refused (refused : Refused c ip) : PeerCall.run c (.edit write oldName newName ip endpoint publicKey) = c := by
  have first := refused_iff.mp refused
  have shown := refused_some refused
  rw [PeerCall.run, editWolfnetPeer]
  dsimp only
  rw [Bool.and_assoc, first, Bool.and_true, if_pos (decide_eq_true shown)]

def edited (newName ip : String) (endpoint : PeerEndpoint) (publicKey : Option String) (p : WolfnetPeer) : WolfnetPeer :=
  ⟨some newName, (nonEmpty publicKey).or p.publicKey, endpoint.apply p.endpoint, (nonEmpty (some (bare ip))).or p.allowedIp⟩

theorem edit_found (open_ : ¬Refused c ip) (finds : Finds (fun p => p.name = some oldName) c.peers front p back) :
    (PeerCall.run c (.edit write oldName newName ip endpoint publicKey)).peers =
      if write.isOk then front ++ edited newName ip endpoint publicKey p :: back else c.peers := by
  have index := finds_iff.mpr ⟨front, p, back, finds, rfl⟩
  have allowed : ¬(bare ip ≠ "" && c.selfWnIp.isSome && parseAddr (bare ip) = c.selfWnIp) = true := by
    rw [Bool.and_assoc, Bool.and_eq_true]
    exact fun both => open_ (refused_iff.mpr both.2)
  rw [PeerCall.run, editWolfnetPeer]
  dsimp only
  rw [if_neg allowed, index]
  dsimp only
  rw [finds.get, finds.set, save_peers]
  split
  · rfl
  · split <;> rfl

theorem edit_unknown (unknown : ∀ q ∈ c.peers, q.name ≠ some oldName) :
    PeerCall.run c (.edit write oldName newName ip endpoint publicKey) = c := by
  have index : c.peers.findIdx? (fun p => p.name = some oldName) = none :=
    List.findIdx?_eq_none_iff.mpr fun q member => decide_eq_false (unknown q member)
  rw [PeerCall.run, editWolfnetPeer]
  dsimp only
  rw [index]
  split <;> rfl

theorem nonEmpty_some {text : Option String} {k : String} : nonEmpty text = some k ↔ text = some k ∧ k ≠ "" := by
  rw [nonEmpty, Option.filter_eq_some_iff]
  simp

theorem bare_bare (ip : String) : bare (bare ip) = bare ip := by
  have same : (ip.toList.takeWhile (· ≠ '/')).takeWhile (· ≠ '/') = ip.toList.takeWhile (· ≠ '/') :=
    List.takeWhile_eq_self_iff.mpr fun c member => List.mem_takeWhile_imp (p := fun x => decide (x ≠ '/')) member
  rw [bare, bare, String.toList_ofList, same]

theorem unknown_iff {q : WolfnetPeer} : q.known name ip publicKey = false ↔
    q.name ≠ some name ∧ (∀ k, nonEmpty publicKey = some k → q.publicKey ≠ some k) ∧ (ip ≠ "" → q.bareIp ≠ some ip) := by
  have key : (publicKey.any fun pk => pk ≠ "" && q.publicKey = some pk) = false ↔ ∀ k, nonEmpty publicKey = some k → q.publicKey ≠ some k := by
    cases publicKey with
    | none => simp [nonEmpty]
    | some pk =>
      simp only [nonEmpty_some, Option.any_some, Bool.and_eq_false_iff, decide_eq_false_iff_not]
      constructor
      · rintro (empty | apart) k ⟨⟨⟩, shown⟩
        · exact absurd shown empty
        · exact apart
      · intro apart
        by_cases empty : pk = ""
        · exact .inl (not_not.mpr empty)
        · exact .inr (apart pk ⟨rfl, empty⟩)
  have address : (ip ≠ "" && q.allowedIp.any fun pip => bare pip = ip) = false ↔ (ip ≠ "" → q.bareIp ≠ some ip) := by
    rw [WolfnetPeer.bareIp]
    cases q.allowedIp <;> simp
  rw [WolfnetPeer.known, Bool.or_eq_false_iff, Bool.or_eq_false_iff, key, address, decide_eq_false_iff_not, and_assoc]

theorem renamed_apart {z : WolfnetPeer} {other : Option String} (apart : Unlike p z) :
    Unlike { p with name := some name, endpoint := other } z ↔ z.name ≠ some name := by
  constructor
  · exact fun both => both.name name rfl
  · intro free
    refine ⟨?_, apart.key, apart.ip⟩
    rintro _ ⟨⟩
    exact free

theorem edited_apart {z : WolfnetPeer} (apart : Unlike p z) : Unlike (edited newName ip endpoint publicKey p) z ↔
    z.name ≠ some newName ∧ (bare ip ≠ "" → z.bareIp ≠ some (bare ip)) ∧ ∀ k, nonEmpty publicKey = some k → z.publicKey ≠ some k := by
  have address : (edited newName ip endpoint publicKey p).bareIp = if bare ip ≠ "" then some (bare ip) else p.bareIp := by
    by_cases shown : bare ip = ""
    · have nothing : nonEmpty (some (bare ip)) = none := by simp [nonEmpty, shown]
      rw [edited, WolfnetPeer.bareIp, if_neg (not_not.mpr shown), nothing, Option.none_or]
      rfl
    · rw [edited, WolfnetPeer.bareIp, if_pos shown, nonEmpty_some.mpr ⟨rfl, shown⟩, Option.some_or, Option.map_some, bare_bare]
  constructor
  · intro both
    refine ⟨both.name newName rfl, ?_, ?_⟩
    · intro shown
      rw [if_pos shown] at address
      exact both.ip _ address
    · intro k some_ same
      have proper := (nonEmpty_some.mp some_).2
      have mine : nonEmpty (edited newName ip endpoint publicKey p).publicKey = some k := by
        rw [edited, some_, Option.some_or]
        exact nonEmpty_some.mpr ⟨rfl, proper⟩
      exact both.key k mine (nonEmpty_some.mpr ⟨same, proper⟩)
  · rintro ⟨free, elsewhere, other⟩
    refine ⟨?_, ?_, ?_⟩
    · rintro _ ⟨⟩
      exact free
    · intro k mine
      cases given : nonEmpty publicKey with
      | none =>
        rw [edited, given, Option.none_or] at mine
        exact apart.key k mine
      | some pk =>
        rw [edited, given, Option.some_or] at mine
        obtain ⟨same, -⟩ := nonEmpty_some.mp mine
        cases same
        exact fun theirs => other k given (nonEmpty_some.mp theirs).1
    · intro a mine
      rw [address] at mine
      split at mine
      next shown =>
        cases mine
        exact elsewhere shown
      next => exact apart.ip a mine

theorem added_apart {z : WolfnetPeer} {other : Option String} (unknown : z.known name (bare ip) publicKey = false) :
    Unlike ⟨some name, nonEmpty publicKey, other, nonEmpty (some (bare ip))⟩ z := by
  obtain ⟨free, keys, address⟩ := unknown_iff.mp unknown
  refine ⟨?_, ?_, ?_⟩
  · rintro _ ⟨⟩
    exact free
  · intro k mine theirs
    exact keys k (nonEmpty_some.mp mine).1 (nonEmpty_some.mp theirs).1
  · intro a mine
    obtain ⟨text, given, rfl⟩ := Option.map_eq_some_iff.mp mine
    have both : some (bare ip) = some text ∧ text ≠ "" := nonEmpty_some.mp given
    obtain ⟨⟨⟩, shown⟩ := both
    rw [bare_bare]
    exact address shown

theorem unique_of_peers {d : WolfnetConfig} (same : d.peers = c.peers) : d.Unique ↔ c.Unique := by
  rw [WolfnetConfig.Unique, same, WolfnetConfig.Unique]

theorem add_unique_iff (unique : c.Unique) :
    (PeerCall.run c (.add write name endpoint ip publicKey)).Unique ↔ PeerCall.Proper c (.add write name endpoint ip publicKey) := by
  by_cases refused : Refused c ip
  · rw [add_refused refused]
    exact iff_of_true unique (.inr (.inl refused))
  by_cases saved : write.isOk = true
  · have found : ∀ front p back, Finds (WolfnetPeer.known name (bare ip) publicKey) c.peers front p back →
        ((PeerCall.run c (.add write name endpoint ip publicKey)).Unique ↔ ∀ q ∈ back, q.name ≠ some name) := by
      intro front p back finds
      have apart : (front ++ p :: back).Pairwise Unlike := finds.1 ▸ unique
      have each : ∀ z ∈ front ++ back, Unlike p z := (pairwise_replace apart).mp apart
      rw [WolfnetConfig.Unique, add_found refused finds, if_pos saved, pairwise_replace apart]
      constructor
      · intro all q member
        exact (renamed_apart (each q (List.mem_append_right _ member))).mp (all q (List.mem_append_right _ member))
      · intro free q member
        apply (renamed_apart (each q member)).mpr
        obtain early | late := List.mem_append.mp member
        · exact (unknown_iff.mp (finds.2.2 q early)).1
        · exact free q late
    constructor
    · intro all
      exact .inr (.inr fun front p back finds => (found front p back finds).mp all)
    · rintro (failed | own | proper)
      · rw [saved] at failed
        cases failed
      · exact absurd own refused
      · cases index : c.peers.findIdx? (WolfnetPeer.known name (bare ip) publicKey) with
        | some idx =>
          obtain ⟨front, p, back, finds, -⟩ := finds_iff.mp index
          exact (found front p back finds).mpr (proper front p back finds)
        | none =>
          have unknown := List.findIdx?_eq_none_iff.mp index
          rw [WolfnetConfig.Unique, add_new refused unknown, if_pos saved, pairwise_push unique]
          exact fun q member => added_apart (unknown q member)
  · refine iff_of_true ?_ (.inl (Bool.eq_false_iff.mpr saved))
    apply (unique_of_peers ?_).mpr unique
    cases index : c.peers.findIdx? (WolfnetPeer.known name (bare ip) publicKey) with
    | some idx =>
      obtain ⟨front, p, back, finds, -⟩ := finds_iff.mp index
      rw [add_found refused finds, if_neg saved]
    | none => rw [add_new refused (List.findIdx?_eq_none_iff.mp index), if_neg saved]

theorem edit_unique_iff (unique : c.Unique) :
    (PeerCall.run c (.edit write oldName newName ip endpoint publicKey)).Unique ↔
      PeerCall.Proper c (.edit write oldName newName ip endpoint publicKey) := by
  by_cases refused : Refused c ip
  · rw [edit_refused refused]
    exact iff_of_true unique (.inr (.inl refused))
  by_cases saved : write.isOk = true
  · have found : ∀ front p back, Finds (fun p => p.name = some oldName) c.peers front p back →
        ((PeerCall.run c (.edit write oldName newName ip endpoint publicKey)).Unique ↔ ∀ q ∈ front ++ back,
          q.name ≠ some newName ∧ (bare ip ≠ "" → q.bareIp ≠ some (bare ip)) ∧ ∀ k, nonEmpty publicKey = some k → q.publicKey ≠ some k) := by
      intro front p back finds
      have apart : (front ++ p :: back).Pairwise Unlike := finds.1 ▸ unique
      have each : ∀ z ∈ front ++ back, Unlike p z := (pairwise_replace apart).mp apart
      rw [WolfnetConfig.Unique, edit_found refused finds, if_pos saved, pairwise_replace apart]
      exact forall₂_congr fun q member => edited_apart (each q member)
    constructor
    · intro all
      exact .inr (.inr fun front p back finds => (found front p back finds).mp all)
    · rintro (failed | own | proper)
      · rw [saved] at failed
        cases failed
      · exact absurd own refused
      · cases index : c.peers.findIdx? (fun p => p.name = some oldName) with
        | some idx =>
          obtain ⟨front, p, back, finds, -⟩ := finds_iff.mp index
          exact (found front p back finds).mpr (proper front p back finds)
        | none =>
          have unknown := List.findIdx?_eq_none_iff.mp index
          rwa [edit_unknown fun q member => of_decide_eq_false (unknown q member)]
  · refine iff_of_true ?_ (.inl (Bool.eq_false_iff.mpr saved))
    cases index : c.peers.findIdx? (fun p => p.name = some oldName) with
    | some idx =>
      obtain ⟨front, p, back, finds, -⟩ := finds_iff.mp index
      exact (unique_of_peers ((edit_found refused finds).trans (if_neg saved))).mpr unique
    | none =>
      have unknown := List.findIdx?_eq_none_iff.mp index
      rwa [edit_unknown fun q member => of_decide_eq_false (unknown q member)]

theorem save_address (peers : List WolfnetPeer) (message : String) : (c.save write peers message).2.address = c.address := by
  cases write <;> rfl

theorem run_address (call : PeerCall) : (call.run c).address = c.address := by
  cases call with
  | add write name endpoint ip publicKey =>
    rw [PeerCall.run, addWolfnetPeer]
    dsimp only
    split
    · rfl
    · split
      · split
        · rfl
        · exact save_address _ _
      · exact save_address _ _
  | edit write oldName newName ip endpoint publicKey =>
    rw [PeerCall.run, editWolfnetPeer]
    dsimp only
    split
    · rfl
    · split
      · rw [save_address]
        split <;> rfl
      · rfl

theorem given_apart {own : BitVec 32} (open_ : ¬Refused c ip) (self_ : c.selfWnIp = some own) : parseAddr (bare ip) ≠ some own :=
  fun same => open_ ⟨same.trans self_.symm, self_ ▸ Option.some_ne_none own⟩

theorem run_noSelf (call : PeerCall) (noSelf : c.NoSelf) : (call.run c).NoSelf := by
  have from_peers : (∀ p ∈ (call.run c).peers, ∀ own, c.selfWnIp = some own → p.bareIp.bind parseAddr ≠ some own) → (call.run c).NoSelf := by
    intro all p member own self_
    rw [WolfnetConfig.selfWnIp, run_address] at self_
    exact all p member own self_
  have given : ∀ ip, ¬Refused c ip → ∀ own, c.selfWnIp = some own → ((nonEmpty (some (bare ip))).map bare).bind parseAddr ≠ some own := by
    intro ip open_ own self_
    by_cases shown : bare ip = ""
    · have nothing : nonEmpty (some (bare ip)) = none := by simp [nonEmpty, shown]
      rw [nothing]
      rintro ⟨⟩
    · rw [nonEmpty_some.mpr ⟨rfl, shown⟩, Option.map_some, bare_bare]
      exact given_apart open_ self_
  cases call with
  | add write name endpoint ip publicKey =>
    by_cases refused : Refused c ip
    · rwa [add_refused refused]
    apply from_peers
    intro q member own self_
    cases index : c.peers.findIdx? (WolfnetPeer.known name (bare ip) publicKey) with
    | some idx =>
      obtain ⟨front, p, back, finds, -⟩ := finds_iff.mp index
      have old : ∀ z ∈ front ++ p :: back, z.bareIp.bind parseAddr ≠ some own := fun z inside => noSelf z (finds.1 ▸ inside) own self_
      rw [add_found refused finds] at member
      split at member
      · obtain early | rfl | late := by simpa only [List.mem_append, List.mem_cons] using member
        · exact old q (List.mem_append_left _ early)
        · exact old p (List.mem_append_right _ List.mem_cons_self)
        · exact old q (List.mem_append_right _ (List.mem_cons_of_mem _ late))
      · exact noSelf q member own self_
    | none =>
      rw [add_new refused (List.findIdx?_eq_none_iff.mp index)] at member
      split at member
      · obtain early | rfl := by simpa only [List.mem_append, List.mem_singleton] using member
        · exact noSelf q early own self_
        · exact given ip refused own self_
      · exact noSelf q member own self_
  | edit write oldName newName ip endpoint publicKey =>
    by_cases refused : Refused c ip
    · rwa [edit_refused refused]
    apply from_peers
    intro q member own self_
    cases index : c.peers.findIdx? (fun p => p.name = some oldName) with
    | some idx =>
      obtain ⟨front, p, back, finds, -⟩ := finds_iff.mp index
      have old : ∀ z ∈ front ++ p :: back, z.bareIp.bind parseAddr ≠ some own := fun z inside => noSelf z (finds.1 ▸ inside) own self_
      rw [edit_found refused finds] at member
      split at member
      · obtain early | rfl | late := by simpa only [List.mem_append, List.mem_cons] using member
        · exact old q (List.mem_append_left _ early)
        · rw [edited, WolfnetPeer.bareIp]
          dsimp only
          cases shown : nonEmpty (some (bare ip)) with
          | none => exact old p (List.mem_append_right _ List.mem_cons_self)
          | some a =>
            have apart := given ip refused own self_
            rw [shown] at apart
            exact apart
        · exact old q (List.mem_append_right _ (List.mem_cons_of_mem _ late))
      · exact noSelf q member own self_
    | none =>
      rw [edit_unknown fun q inside => of_decide_eq_false (List.findIdx?_eq_none_iff.mp index q inside)] at member
      exact noSelf q member own self_

theorem run_unique_iff (call : PeerCall) (unique : c.Unique) : (call.run c).Unique ↔ call.Proper c := by
  cases call with
  | add => exact add_unique_iff unique
  | edit => exact edit_unique_iff unique

theorem runs_concat (calls : List PeerCall) (call : PeerCall) : c.runs (calls ++ [call]) = call.run (c.runs calls) := by
  rw [WolfnetConfig.runs, List.foldl_append]
  rfl

theorem runs_noSelf (calls : List PeerCall) (noSelf : c.NoSelf) : (c.runs calls).NoSelf := by
  induction calls using List.reverseRecOn with
  | nil => exact noSelf
  | append_singleton calls call ih =>
    rw [runs_concat]
    exact run_noSelf call ih

/-- From peers that are apart, they are so and none is the node itself throughout a run just
if that was so of none before it and every call is proper where it is made. -/
theorem peers_sound_iff (c : WolfnetConfig) (calls : List PeerCall) (unique : c.Unique) :
    (∀ made, made <+: calls → (c.runs made).Sound) ↔
      c.NoSelf ∧ ∀ made call more, calls = made ++ call :: more → call.Proper (c.runs made) := by
  constructor
  · intro always
    refine ⟨(always [] List.nil_prefix).noSelf, ?_⟩
    intro made call more split
    have until_ : made ++ [call] <+: calls := ⟨more, by rw [split]; simp⟩
    have after := (always _ until_).unique
    rw [runs_concat] at after
    exact (run_unique_iff call (always made ((List.prefix_append _ _).trans until_)).unique).mp after
  · rintro ⟨noSelf, proper⟩ made begins
    refine ⟨?_, runs_noSelf made noSelf⟩
    induction made using List.reverseRecOn with
    | nil => exact unique
    | append_singleton made call ih =>
      obtain ⟨more, split⟩ := begins
      rw [runs_concat, run_unique_iff call (ih ((List.prefix_append _ _).trans ⟨more, split⟩))]
      exact proper made call more (by rw [← split]; simp)

def twoPeers : WolfnetConfig :=
  ⟨some "10.10.10.1", [⟨some "a", some "KA", none, some "10.10.10.2"⟩, ⟨some "b", some "KB", none, some "10.10.10.3/32"⟩], []⟩

theorem twoPeers_unique : twoPeers.Unique := by
  rw [WolfnetConfig.Unique, twoPeers, List.pairwise_pair]
  refine ⟨?_, ?_, ?_⟩
  · rintro n ⟨⟩
    decide
  · intro k mine theirs
    have same : nonEmpty (some "KA") = nonEmpty (some "KB") := mine.trans theirs.symm
    exact absurd same (by decide)
  · intro a mine theirs
    have same : (some "10.10.10.2").map bare = (some "10.10.10.3/32").map bare := mine.trans theirs.symm
    exact absurd same (by decide)

theorem finds_all {known : WolfnetPeer → Bool} {peers : List WolfnetPeer} {P : List WolfnetPeer → List WolfnetPeer → Prop} :
    (∀ front p back, Finds known peers front p back → P front back) ↔
      ∀ idx ∈ peers.findIdx? known, P (peers.take idx) (peers.drop (idx + 1)) := by
  constructor
  · intro all idx found
    obtain ⟨front, p, back, finds, rfl⟩ := finds_iff.mp found
    have here := all front p back finds
    obtain ⟨rfl, -⟩ := finds
    simpa using here
  · intro at_ front p back finds
    have here := at_ front.length (finds_iff.mpr ⟨front, p, back, finds, rfl⟩)
    obtain ⟨rfl, -⟩ := finds
    simpa using here

instance (c : WolfnetConfig) (ip : String) : Decidable (Refused c ip) := inferInstanceAs (Decidable (_ ∧ _))

instance (c : WolfnetConfig) : (call : PeerCall) → Decidable (call.Proper c)
  | .add _ _ _ _ _ => decidable_of_iff _ (or_congr Iff.rfl (or_congr Iff.rfl finds_all.symm))
  | .edit _ _ _ _ _ publicKey =>
    have : ∀ q : WolfnetPeer, Decidable (∀ k, nonEmpty publicKey = some k → q.publicKey ≠ some k) := fun q =>
      inferInstanceAs (Decidable (∀ k ∈ nonEmpty publicKey, q.publicKey ≠ some k))
    decidable_of_iff _ (or_congr Iff.rfl (or_congr Iff.rfl finds_all.symm))

theorem proper_cons {c : WolfnetConfig} {first : PeerCall} {calls : List PeerCall} (here : first.Proper c)
    (later : ∀ made call more, calls = made ++ call :: more → call.Proper ((first.run c).runs made)) :
    ∀ made call more, first :: calls = made ++ call :: more → call.Proper (c.runs made) := by
  intro made call more split
  cases made with
  | nil =>
    obtain ⟨rfl, -⟩ := List.cons.inj split
    exact here
  | cons other made =>
    obtain ⟨rfl, rest⟩ := List.cons.inj split
    exact later made call more rest

/-- A peer is added, another renamed and moved, the new one is given an endpoint; a call with the
node's own address is refused, and a write fails. -/
def fiveCalls : List PeerCall :=
  [.add (.ok ()) "c" .preserve "10.10.10.4" (some "KC"), .edit (.ok ()) "a" "a2" "10.10.10.5/32" .preserve none,
    .add (.ok ()) "c" (.set "198.51.100.7:9600") "10.10.10.4" none, .add (.ok ()) "b" .preserve "10.10.10.1" none,
    .edit (.error "disk full") "b" "c" "" .clear none]

theorem new_peer_sound : (twoPeers.runs fiveCalls).Sound ∧
    (twoPeers.runs fiveCalls).peers.map (·.name) = [some "a2", some "b", some "c"] := by
  have others : ∀ p ∈ twoPeers.peers, p.bareIp.bind parseAddr ≠ twoPeers.selfWnIp := by decide +kernel
  refine ⟨(peers_sound_iff twoPeers fiveCalls twoPeers_unique).mpr ⟨fun p member own self_ same => others p member (same.trans self_.symm), ?_⟩
    fiveCalls List.prefix_rfl, by decide +kernel⟩
  refine proper_cons (by decide +kernel) (proper_cons (by decide +kernel) (proper_cons (by decide +kernel) (proper_cons (by decide +kernel)
    (proper_cons (by decide +kernel) ?_))))
  intro made call more split
  cases made <;> cases split

/-- A call with the address of one peer and the name of another, and an edit that gives a
peer the name of another. -/
theorem peers_clash : twoPeers.Unique ∧ ¬(twoPeers.runs [.add (.ok ()) "b" .preserve "10.10.10.2" none]).Unique ∧
    ¬(twoPeers.runs [.edit (.ok ()) "a" "b" "" .preserve none]).Unique := by
  have clash : ∀ first second : WolfnetPeer, ∀ c : WolfnetConfig, c.peers = [first, second] → first.name = some "b" → second.name = some "b" →
      ¬c.Unique := by
    intro first second c shape one two unique
    rw [WolfnetConfig.Unique, shape, List.pairwise_pair] at unique
    exact unique.name "b" one two
  refine ⟨twoPeers_unique, ?_, ?_⟩
  · exact clash ⟨some "b", some "KA", none, some "10.10.10.2"⟩ ⟨some "b", some "KB", none, some "10.10.10.3/32"⟩ _ (by decide) rfl rfl
  · exact clash ⟨some "b", some "KA", none, some "10.10.10.2"⟩ ⟨some "b", some "KB", none, some "10.10.10.3/32"⟩ _ (by decide) rfl rfl

end Networking
