import WolfStack.Cluster.Poll
import WolfStack.Lists.Greedy
import Mathlib.Data.Bool.Basic
import Mathlib.Data.Prod.Lex
import Mathlib.Data.String.Basic

/-! How the list is freed of duplicates at the start. The records are gone through from the best
one on, and a record is dropped if it shares its `self_id` or its address with one that is kept. -/

namespace Cluster

/-- The lower, the better. -/
def pruneKey (n : Node) : Bool ×ₗ Bool ×ₗ Bool ×ₗ Bool ×ₗ String :=
  toLex (!n.isSelf, toLex (!n.joinVerified, toLex (!n.online, toLex (!isUsableAddr n.address, n.id))))

def addrKey (n : Node) : Option String :=
  if isUsableAddr n.address then some (n.address ++ ":" ++ toString n.port) else none

structure Prune where
  seenSelfIds : List String
  seenAddrs : List String
  remove : List String

def Prune.visit (p : Prune) (n : Node) : Prune :=
  if n.isSelf then p
  else if (∃ sid ∈ knownSid n, sid ∈ p.seenSelfIds) ∨ ∃ addr ∈ addrKey n, addr ∈ p.seenAddrs then
    { p with remove := p.remove ++ [n.id] }
  else { p with seenSelfIds := (knownSid n).toList ++ p.seenSelfIds, seenAddrs := (addrKey n).toList ++ p.seenAddrs }

def pruneOrder (entries : List Node) : List Node := entries.mergeSort fun a b => decide (pruneKey a ≤ pruneKey b)

def planPrune (entries : List Node) : List String := ((pruneOrder entries).foldl Prune.visit ⟨[], [], []⟩).remove

/-- The records left, and how many fewer there are. The map gives them in any order. -/
def NodeMap.pruneDuplicateNodes (nodes : NodeMap) (entries : List Node) : NodeMap × Nat :=
  let kept := (planPrune entries).foldl NodeMap.remove nodes
  (kept, nodes.values.length - kept.values.length)

def SharesKey (a b : Node) : Prop :=
  (∃ sid ∈ knownSid a, knownSid b = some sid) ∨ (isUsableAddr a.address = true ∧ a.address = b.address ∧ a.port = b.port)

/-- Whether a record is verified counts most, then whether it is online, then whether its address
can be used. -/
def RanksAtLeast (k n : Node) : Prop :=
  n.joinVerified < k.joinVerified ∨ n.joinVerified = k.joinVerified ∧
    (n.online < k.online ∨ n.online = k.online ∧ isUsableAddr n.address ≤ isUsableAddr k.address)

structure Pruned (nodes kept : NodeMap) : Prop where
  inside : ∀ n ∈ kept.values, n ∈ nodes.values
  selves : ∀ n ∈ nodes.values, n.isSelf = true → n ∈ kept.values
  apart : ∀ a ∈ kept.values, ∀ b ∈ kept.values, a.isSelf = false → b.isSelf = false → SharesKey a b → a = b
  dropped : ∀ n ∈ nodes.values, n ∉ kept.values → ∃ k ∈ kept.values, k.isSelf = false ∧ SharesKey k n ∧ RanksAtLeast k n
  settled : ∀ entries, entries.Perm kept.values → planPrune entries = []

theorem port_notMem (port : Nat) : ':' ∉ (toString port).toList := by
  rw [Nat.toString_eq_ofList_toDigits, String.toList_ofList]
  exact fun member => absurd (Nat.isDigit_of_mem_toDigits (by decide) (by decide) member) (by decide)

theorem port_inj {a b : Nat} (same : toString a = toString b) : a = b := by
  have digits := congrArg String.toList same
  rw [Nat.toString_eq_ofList_toDigits, Nat.toString_eq_ofList_toDigits, String.toList_ofList, String.toList_ofList] at digits
  rw [← Nat.ofDigitChars_ten_toDigits (n := a), digits, Nat.ofDigitChars_ten_toDigits]

theorem last_mark {mark : Char} {a b c d : List Char} (same : a ++ mark :: c = b ++ mark :: d) (left : mark ∉ c) (right : mark ∉ d) :
    a = b ∧ c = d := by
  obtain ⟨middle, longer, rest⟩ | ⟨middle, longer, rest⟩ := List.append_eq_append_iff.mp same
  · cases middle with
    | nil => exact ⟨by rw [longer, List.append_nil], (List.cons.inj rest).2⟩
    | cons first more =>
      have later := (List.cons.inj rest).2
      exact absurd (later ▸ List.mem_append_right more List.mem_cons_self) left
  · cases middle with
    | nil => exact ⟨by rw [longer, List.append_nil], (List.cons.inj rest).2.symm⟩
    | cons first more =>
      have later := (List.cons.inj rest).2
      exact absurd (later ▸ List.mem_append_right more List.mem_cons_self) right

theorem endpoint_inj {a b : String} {p q : Nat} (same : a ++ ":" ++ toString p = b ++ ":" ++ toString q) : a = b ∧ p = q := by
  have chars := congrArg String.toList same
  rw [String.toList_append, String.toList_append, String.toList_append, String.toList_append, List.append_assoc, List.append_assoc] at chars
  obtain ⟨address, port⟩ := last_mark chars (port_notMem p) (port_notMem q)
  exact ⟨String.toList_inj.mp address, port_inj (String.toList_inj.mp port)⟩

theorem addrKey_iff (a b : Node) :
    (∃ addr ∈ addrKey b, addrKey a = some addr) ↔ isUsableAddr a.address = true ∧ a.address = b.address ∧ a.port = b.port := by
  unfold addrKey
  constructor
  · rintro ⟨addr, there, same⟩
    split at there
    next =>
      split at same
      next usable =>
        obtain ⟨address, port⟩ := endpoint_inj ((Option.some.inj same).trans (Option.some.inj there).symm)
        exact ⟨usable, address, port⟩
      next => cases same
    next => cases there
  · rintro ⟨usable, address, port⟩
    rw [← address, ← port, if_pos usable]
    exact ⟨_, rfl, rfl⟩

theorem sharesKey_iff (a b : Node) :
    SharesKey a b ↔ (∃ sid ∈ knownSid b, knownSid a = some sid) ∨ ∃ addr ∈ addrKey b, addrKey a = some addr := by
  rw [SharesKey, addrKey_iff]
  exact or_congr_left ⟨fun ⟨sid, left, right⟩ => ⟨sid, right, left⟩, fun ⟨sid, left, right⟩ => ⟨sid, right, left⟩⟩

theorem SharesKey.symm {a b : Node} (shares : SharesKey a b) : SharesKey b a := by
  obtain ⟨sid, left, right⟩ | ⟨usable, address, port⟩ := shares
  · exact .inl ⟨sid, right, left⟩
  · exact .inr ⟨address ▸ usable, address.symm, port.symm⟩

instance : Std.Symm fun a b => ¬SharesKey a b where
  symm _ _ apart shares := apart shares.symm

/-- What has been seen is what is kept, and what is removed is what is dropped. -/
structure Prune.Tracks (p : Prune) (list kept dropped : List Node) : Prop where
  chosen : Greedy.Chosen SharesKey (list.filter fun n => !n.isSelf) kept dropped
  sids : ∀ sid, sid ∈ p.seenSelfIds ↔ ∃ k ∈ kept, knownSid k = some sid
  addrs : ∀ addr, addr ∈ p.seenAddrs ↔ ∃ k ∈ kept, addrKey k = some addr
  remove : p.remove = dropped.map Node.id

namespace Prune
variable {p : Prune} {list kept dropped : List Node}

theorem Tracks.seen_iff (tracks : p.Tracks list kept dropped) (n : Node) :
    ((∃ sid ∈ knownSid n, sid ∈ p.seenSelfIds) ∨ ∃ addr ∈ addrKey n, addr ∈ p.seenAddrs) ↔ ∃ k ∈ kept, SharesKey k n := by
  simp only [sharesKey_iff, tracks.sids, tracks.addrs]
  constructor
  · rintro (⟨sid, here, k, there, same⟩ | ⟨addr, here, k, there, same⟩)
    · exact ⟨k, there, .inl ⟨sid, here, same⟩⟩
    · exact ⟨k, there, .inr ⟨addr, here, same⟩⟩
  · rintro ⟨k, there, ⟨sid, here, same⟩ | ⟨addr, here, same⟩⟩
    · exact .inl ⟨sid, here, k, there, same⟩
    · exact .inr ⟨addr, here, k, there, same⟩

theorem Tracks.visit (tracks : p.Tracks list kept dropped) (n : Node) : ∃ kept dropped, (p.visit n).Tracks (list ++ [n]) kept dropped := by
  unfold Prune.visit
  cases self : n.isSelf with
  | true =>
    refine ⟨kept, dropped, ?_, tracks.sids, tracks.addrs, tracks.remove⟩
    simpa [List.filter_append, self] using tracks.chosen
  | false =>
    have grown : (list ++ [n]).filter (fun n => !n.isSelf) = list.filter (fun n => !n.isSelf) ++ [n] := by
      simp [List.filter_append, self]
    rw [if_neg Bool.false_ne_true]
    split
    next seen =>
      obtain ⟨k, there, shares⟩ := (tracks.seen_iff n).mp seen
      refine ⟨kept, dropped ++ [n], ?_, tracks.sids, tracks.addrs, ?_⟩
      · rw [grown]
        exact tracks.chosen.drop there shares
      · rw [List.map_append, tracks.remove, List.map_singleton]
    next unseen =>
      refine ⟨kept ++ [n], dropped, ?_, fun sid => ?_, fun addr => ?_, tracks.remove⟩
      · rw [grown]
        exact tracks.chosen.keep fun k there shares => unseen ((tracks.seen_iff n).mpr ⟨k, there, shares⟩)
      · simp [tracks.sids, or_comm]
      · simp [tracks.addrs, or_comm]

theorem Tracks.visits (tracks : p.Tracks list kept dropped) (rest : List Node) :
    ∃ kept dropped, (rest.foldl Prune.visit p).Tracks (list ++ rest) kept dropped := by
  induction rest generalizing p list kept dropped with
  | nil => exact ⟨kept, dropped, by rwa [List.append_nil]⟩
  | cons n rest ih =>
    obtain ⟨_, _, after⟩ := tracks.visit n
    rw [List.append_cons]
    exact ih after

theorem tracks_start : (⟨[], [], []⟩ : Prune).Tracks [] [] [] :=
  ⟨.start, by simp, by simp, rfl⟩

end Prune

variable {entries : List Node}

theorem pruneOrder_perm : (pruneOrder entries).Perm entries := List.mergeSort_perm _ _

theorem pruneOrder_pairwise : (pruneOrder entries).Pairwise fun a b => pruneKey a ≤ pruneKey b := by
  refine (List.pairwise_mergeSort ?_ ?_ entries).imp of_decide_eq_true
  · intro a b c first second
    exact decide_eq_true ((of_decide_eq_true first).trans (of_decide_eq_true second))
  · intro a b
    rw [← Bool.decide_or]
    exact decide_eq_true (le_total _ _)

theorem ranks_of_key {k n : Node} (keeper : k.isSelf = false) (other : n.isSelf = false) (before : pruneKey k ≤ pruneKey n) :
    RanksAtLeast k n := by
  have turned : ∀ {a b : Bool}, (!a) < (!b) → b < a := by decide
  simp only [pruneKey, Prod.Lex.toLex_le_toLex, keeper, other, lt_irrefl, false_or, true_and] at before
  rcases before with verified | ⟨verified, online | ⟨online, usable | ⟨usable, -⟩⟩⟩
  · exact .inl (turned verified)
  · exact .inr ⟨(Bool.not_inj verified).symm, .inl (turned online)⟩
  · exact .inr ⟨(Bool.not_inj verified).symm, .inr ⟨(Bool.not_inj online).symm, (turned usable).le⟩⟩
  · exact .inr ⟨(Bool.not_inj verified).symm, .inr ⟨(Bool.not_inj online).symm, (Bool.not_inj usable).ge⟩⟩

theorem mem_removeAll {nodes : NodeMap} (ids : List String) (n : Node) :
    n ∈ (ids.foldl NodeMap.remove nodes).values ↔ n ∈ nodes.values ∧ n.id ∉ ids := by
  induction ids generalizing nodes with
  | nil => simp
  | cons id ids ih =>
    rw [List.foldl_cons, ih, NodeMap.mem_remove, List.mem_cons, not_or, and_assoc]

theorem planPrune_chosen (entries : List Node) :
    ∃ kept dropped, Greedy.Chosen SharesKey ((pruneOrder entries).filter fun n => !n.isSelf) kept dropped ∧
      planPrune entries = dropped.map Node.id := by
  obtain ⟨kept, dropped, tracks⟩ := Prune.tracks_start.visits (pruneOrder entries)
  exact ⟨kept, dropped, tracks.chosen, tracks.remove⟩

theorem planPrune_nil (distinct : entries.Nodup)
    (apart : ∀ a ∈ entries, ∀ b ∈ entries, a.isSelf = false → b.isSelf = false → SharesKey a b → a = b) : planPrune entries = [] := by
  obtain ⟨kept, dropped, chosen, plan⟩ := planPrune_chosen entries
  have others : ∀ {n}, n ∈ (pruneOrder entries).filter (fun n => !n.isSelf) → n ∈ entries ∧ n.isSelf = false := by
    intro n member
    obtain ⟨listed, other⟩ := List.mem_filter.mp member
    exact ⟨pruneOrder_perm.mem_iff.mp listed, by simpa using other⟩
  have free : ((pruneOrder entries).filter fun n => !n.isSelf).Pairwise fun a b => ¬SharesKey a b := by
    refine ((pruneOrder_perm.nodup_iff.mpr distinct).filter _).pairwise_of_forall_ne ?_
    intro a left b right different shares
    exact different (apart a (others left).1 b (others right).1 (others left).2 (others right).2 shares)
  rw [plan, chosen.dropped_nil free, List.map_nil]

/-- For any records, in whatever order the map gives them. -/
theorem pruneDuplicateNodes_exact (nodes : NodeMap) (entries : List Node) (listing : entries.Perm nodes.values) :
    Pruned nodes (nodes.pruneDuplicateNodes entries).1 := by
  obtain ⟨kept, dropped, chosen, plan⟩ := planPrune_chosen entries
  have others (n : Node) : n ∈ kept ∨ n ∈ dropped ↔ n ∈ nodes.values ∧ n.isSelf = false := by
    rw [← chosen.mem_iff, List.mem_filter, pruneOrder_perm.mem_iff, listing.mem_iff]
    simp
  have left (n : Node) : n ∈ (nodes.pruneDuplicateNodes entries).1.values ↔ n ∈ nodes.values ∧ n ∉ dropped := by
    rw [NodeMap.pruneDuplicateNodes, mem_removeAll, plan]
    refine and_congr_right fun member => not_congr ⟨fun gone => ?_, List.mem_map_of_mem⟩
    obtain ⟨other, there, same⟩ := List.mem_map.mp gone
    exact NodeMap.eq_of_id ((others other).mp (.inr there)).1 member same ▸ there
  have distinct : (kept ++ dropped).Nodup := by
    rw [chosen.perm.nodup_iff]
    exact (pruneOrder_perm.nodup_iff.mpr (listing.nodup_iff.mpr nodes.distinct.of_map)).filter _
  have stays {k : Node} (member : k ∈ kept) : k ∈ (nodes.pruneDuplicateNodes entries).1.values :=
    (left k).mpr ⟨((others k).mp (.inl member)).1, fun gone => (List.disjoint_of_nodup_append distinct) member gone⟩
  have keeper {n : Node} (member : n ∈ (nodes.pruneDuplicateNodes entries).1.values) (other : n.isSelf = false) : n ∈ kept :=
    ((others n).mpr ⟨((left n).mp member).1, other⟩).resolve_right ((left n).mp member).2
  have apart : ∀ a ∈ (nodes.pruneDuplicateNodes entries).1.values, ∀ b ∈ (nodes.pruneDuplicateNodes entries).1.values,
      a.isSelf = false → b.isSelf = false → SharesKey a b → a = b := by
    intro a first b second notA notB shares
    by_contra different
    exact chosen.apart.forall (keeper first notA) (keeper second notB) different shares
  refine ⟨fun n member => ((left n).mp member).1, fun n member self => ?_, apart, fun n member gone => ?_, fun again order => ?_⟩
  · refine (left n).mpr ⟨member, fun out => ?_⟩
    rw [((others n).mp (.inr out)).2] at self
    cases self
  · have out : n ∈ dropped := by
      by_contra inside
      exact gone ((left n).mpr ⟨member, inside⟩)
    obtain ⟨k, there, shares, before⟩ := chosen.dropped_for (pruneOrder_pairwise.filter _) n out
    have self := ((others k).mp (.inl there)).2
    exact ⟨k, stays there, self, shares, ranks_of_key self ((others n).mp (.inr out)).2 before⟩
  · refine planPrune_nil (order.nodup_iff.mpr (NodeMap.distinct _).of_map) ?_
    intro a first b second
    exact apart a (order.mem_iff.mp first) b (order.mem_iff.mp second)

def seenTwice : NodeMap := ⟨[sampleNode "lan" "10.0.0.2", sampleNode "wg" "10.0.0.2"], by decide⟩

theorem seenTwice_pruned : Pruned seenTwice (seenTwice.pruneDuplicateNodes [sampleNode "wg" "10.0.0.2", sampleNode "lan" "10.0.0.2"]).1 :=
  pruneDuplicateNodes_exact seenTwice _ (List.Perm.swap _ _ [])

end Cluster
