import WolfStack.Cluster.Removal
import WolfStack.Effects.Alone
import Mathlib.Data.List.Dedup
import Mathlib.Data.String.Basic

/-! Does gossip widen trust? The addresses of verified nodes are exempt from blocking, so
gossip may neither bring in a verified record nor give one another address. -/

namespace Cluster
open Effects
open Effects.Program (send)

def trusted (n : Node) : Bool := n.joinVerified || n.isSelf

def addressesOf (n : Node) : List String :=
  (if n.address = "" then [] else [n.address]) ++ (n.publicIp.filter fun p => p ≠ "").toList

def wolfstackNodeIps (me : Me) (now : Nat) (nodes : NodeMap) : List String :=
  let own := if me.address = "" then [] else [me.address]
  let peers := (allNodes me now nodes).flatMap fun n => if n.nodeType = "wolfstack" ∧ trusted n then addressesOf n else []
  ((own ++ peers).mergeSort (· ≤ ·)).dedup

def selfHostname (me : Me) (nodes : NodeMap) : String := ((nodes.get me.id).map Node.hostname).getD ""

def shown (me : Me) (nodes : NodeMap) : NodeMap := nodes.filter fun n => !isSelfAlias n me.id (selfHostname me nodes) me.port

/-- What a copy was made of: all that is shown, with who is online judged anew. -/
structure Copied (me : Me) (nodes : NodeMap) (current : List Node) (judge : Node → Node) : Prop where
  perm : current.Perm ((shown me nodes).values.map judge)
  judge : ∀ n, ∃ online, judge n = { n with online }

variable {me : Me} {nodes : NodeMap} {current : List Node} {judge : Node → Node}

theorem copied (now : Nat) (copy : current.Perm (allNodes me now nodes)) : ∃ judge, Copied me nodes current judge := by
  refine ⟨_, copy, fun n => ?_⟩
  split
  · exact ⟨n.online, rfl⟩
  · exact ⟨_, rfl⟩

namespace Copied

theorem any (copied : Copied me nodes current judge) {known : Node → Bool}
    (blind : ∀ (n : Node) online, known { n with online } = known n) : current.any known = (shown me nodes).values.any known := by
  rw [copied.perm.any_eq, List.any_map]
  congr 1
  funext n
  obtain ⟨online, same⟩ := copied.judge n
  rw [Function.comp_apply, same, blind]

theorem memberKnown (copied : Copied me nodes current judge) (m : Node) :
    memberKnown current m = Cluster.memberKnown (shown me nodes).values m :=
  copied.any fun _ _ => rfl

theorem gossipKnown (copied : Copied me nodes current judge) (known : Node) :
    gossipKnown current known = Cluster.gossipKnown (shown me nodes).values known :=
  copied.any fun _ _ => rfl

theorem judged_id (copied : Copied me nodes current judge) (n : Node) : (judge n).id = n.id := by
  obtain ⟨online, same⟩ := copied.judge n
  rw [same]

theorem find (copied : Copied me nodes current judge) (id : String) :
    (current.find? fun n => n.id = id) = ((shown me nodes).get id).map judge := by
  have same : ((shown me nodes).values.map judge).map Node.id = (shown me nodes).values.map Node.id := by
    rw [List.map_map]
    exact List.map_congr_left fun n _ => copied.judged_id n
  have distinct : (current.map Node.id).Nodup := by
    rw [(copied.perm.map Node.id).nodup_iff, same]
    exact (shown me nodes).distinct
  change (NodeMap.mk current distinct).get id = _
  apply Option.ext
  intro n
  simp only [NodeMap.get_eq_some, Option.map_eq_some_iff, copied.perm.mem_iff, List.mem_map]
  constructor
  · rintro ⟨⟨old, member, rfl⟩, named⟩
    exact ⟨old, ⟨member, (copied.judged_id old).symm.trans named⟩, rfl⟩
  · rintro ⟨old, ⟨member, named⟩, rfl⟩
    exact ⟨⟨old, member, rfl⟩, (copied.judged_id old).trans named⟩

end Copied

theorem mem_addressesOf {n : Node} {ip : String} : ip ∈ addressesOf n ↔ ip ≠ "" ∧ (ip = n.address ∨ n.publicIp = some ip) := by
  simp only [addressesOf, List.mem_append, Option.mem_toList, Option.filter_eq_some_iff, decide_eq_true_eq]
  split
  · rename_i none_
    rw [none_]
    simp only [List.not_mem_nil, false_or]
    constructor
    · exact fun held => ⟨held.2, .inr held.1⟩
    · exact fun held => ⟨held.2.resolve_left held.1, held.1⟩
  · rename_i some_
    rw [List.mem_singleton]
    constructor
    · rintro (rfl | held)
      · exact ⟨some_, .inl rfl⟩
      · exact ⟨held.2, .inr held.1⟩
    · rintro ⟨named, rfl | held⟩
      · exact .inl rfl
      · exact .inr ⟨held, named⟩

theorem mem_nodeIps {now : Nat} {ip : String} : ip ∈ wolfstackNodeIps me now nodes ↔
    ip ≠ "" ∧ (ip = me.address ∨ ∃ n ∈ (shown me nodes).values, n.nodeType = "wolfstack" ∧ trusted n = true ∧
      (ip = n.address ∨ n.publicIp = some ip)) := by
  obtain ⟨judge, copied⟩ := copied now (List.Perm.refl (allNodes me now nodes))
  have own : ip ∈ (if me.address = "" then [] else [me.address]) ↔ ip ≠ "" ∧ ip = me.address := by
    split
    · rename_i none_
      rw [none_]
      exact ⟨(fun member => by cases member), fun held => absurd held.2 held.1⟩
    · rename_i some_
      rw [List.mem_singleton]
      exact ⟨fun same => ⟨fun empty => some_ (same.symm.trans empty), same⟩, fun held => held.2⟩
  have each : ∀ n, ip ∈ (if n.nodeType = "wolfstack" ∧ trusted n then addressesOf n else []) ↔
      ip ≠ "" ∧ n.nodeType = "wolfstack" ∧ trusted n = true ∧ (ip = n.address ∨ n.publicIp = some ip) := by
    intro n
    split
    · rename_i counts
      rw [mem_addressesOf]
      exact ⟨fun held => ⟨held.1, counts.1, counts.2, held.2⟩, fun held => ⟨held.1, held.2.2.2⟩⟩
    · rename_i idle
      exact ⟨(fun member => by cases member), fun held => absurd ⟨held.2.1, held.2.2.1⟩ idle⟩
  simp only [wolfstackNodeIps, List.mem_dedup, List.mem_mergeSort, List.mem_append, own, List.mem_flatMap, each,
    copied.perm.mem_iff, List.mem_map]
  constructor
  · rintro (held | ⟨_, ⟨n, member, rfl⟩, named, kind, trust, at_⟩)
    · exact ⟨held.1, .inl held.2⟩
    · obtain ⟨online, same⟩ := copied.judge n
      rw [same] at kind trust at_
      exact ⟨named, .inr ⟨n, member, kind, trust, at_⟩⟩
  · rintro ⟨named, same | ⟨n, member, kind, trust, at_⟩⟩
    · exact .inl ⟨named, same⟩
    · refine .inr ⟨judge n, ⟨n, member, rfl⟩, named, ?_⟩
      obtain ⟨online, same⟩ := copied.judge n
      rw [same]
      exact ⟨kind, trust, at_⟩

/-- Nothing that is exempt has come in since, no verified record has come in or moved, and
whatever has moved is near. -/
structure Sound (me : Me) (before s : Registry) : Prop where
  exempt : ∀ now later, wolfstackNodeIps me later s.nodes ⊆ wolfstackNodeIps me now before.nodes
  verified : ∀ n ∈ s.nodes.values, trusted n = true → ∃ o ∈ before.nodes.values, o.id = n.id ∧ trusted o = true ∧ o.address = n.address
  near : ∀ n ∈ s.nodes.values, isPrivateAddress n.address = true ∨ ∃ o ∈ before.nodes.values, o.id = n.id ∧ o.address = n.address

/-- What is seeded is not verified. -/
def Section.Unverified : {β : Type} → Section β → Prop
  | _, .updateRemote entry => entry.joinVerified = false
  | _, _ => True

def Section.Ran (me : Me) {β : Type} (before : Registry) (operation : Section β) (value : β) (after : Registry) : Prop :=
  ∃ now, operation.Runs me now before value after

abbrev Trusting (me : Me) (before : Registry) (post : Registry → Prop) (program : Program Section Unit) (s : Registry) : Prop :=
  program.Alone (fun s operation => operation.Ran me s) (fun s operation => Sound me before s ∧ operation.Unverified)
    (fun _ => post) s

def KeepsTrust (me : Me) (before : Registry) (program : Program Section Unit) : Prop :=
  Trusting me before (Sound me before) program before

def eligible (me : Me) (localAddrs : List String) (s : Registry) (m : Node) : Bool :=
  !passedOver me localAddrs m && m.id ∉ s.deleted && !memberKnown (shown me s.nodes).values m && isPrivateAddress m.address

def MembersUnverified (me : Me) (localAddrs : List String) (s : Registry) (members : List Node) : Prop :=
  ∀ earlier m later, members = earlier ++ m :: later → eligible me localAddrs s m = true →
    (∀ e ∈ earlier, eligible me localAddrs s e = true → e.selfId ≠ m.selfId) → m.joinVerified = false

def aboutMe (me : Me) (localAddrs : List String) (known : Node) : Bool :=
  (gossipIdentityMatch known me.id localAddrs).1 || (known.nodeType = "wolfstack" ∧ known.hostname = me.hostname ∧ known.port = me.port)

/-- An entry for a record that is shown may move it only if it is not verified, and near;
another one may not be verified, if it is let through. -/
def Harmless (me : Me) (localAddrs : List String) (s : Registry) (known : Node) : Prop :=
  aboutMe me localAddrs known = false → known.id ∉ s.deleted →
    match (shown me s.nodes).get known.id with
    | some existing => isUsableAddr known.address = true → known.address ≠ existing.address →
      trusted existing = false ∧ isPrivateAddress known.address = true
    | none => gossipKnown (shown me s.nodes).values known = false → (knownSid known).isSome = true →
      isPrivateAddress known.address = true → known.joinVerified = false

/-- A record with what is left of it; a record that was passed over still is. -/
structure Heir (me : Me) (hostname : String) (o n : Node) : Prop where
  id : n.id = o.id
  trusted : trusted n = trusted o
  nodeType : n.nodeType = o.nodeType
  publicIp : n.publicIp = o.publicIp
  address : n.address = o.address ∨ (Cluster.trusted o = false ∧ isPrivateAddress n.address = true)
  hidden : isSelfAlias o me.id hostname me.port = true → isSelfAlias n me.id hostname me.port = true

structure Kept (me : Me) (before s : Registry) : Prop where
  records : ∀ n ∈ s.nodes.values, (∃ o ∈ before.nodes.values, Heir me (selfHostname me before.nodes) o n) ∨
    ((shown me before.nodes).get n.id = none ∧ trusted n = false ∧ isPrivateAddress n.address = true)
  there : ∀ o ∈ (shown me before.nodes).values, ∃ n ∈ s.nodes.values, n.id = o.id
  hostname : selfHostname me s.nodes = selfHostname me before.nodes
  deleted : s.deleted = before.deleted

variable {before s : Registry}

theorem Heir.refl (me : Me) (hostname : String) (n : Node) : Heir me hostname n n :=
  ⟨rfl, rfl, rfl, rfl, .inl rfl, fun hidden => hidden⟩

theorem Kept.refl (me : Me) (before : Registry) : Kept me before before where
  records n member := .inl ⟨n, member, .refl me _ n⟩
  there o member := ⟨o, (NodeMap.mem_filter.mp member).1, rfl⟩
  hostname := rfl
  deleted := rfl

theorem Kept.heir (kept : Kept me before s) {existing n : Node} {id : String} (found : (shown me before.nodes).get id = some existing)
    (member : n ∈ s.nodes.values) (here : n.id = id) : Heir me (selfHostname me before.nodes) existing n := by
  subst here
  rcases kept.records n member with ⟨o, there, heir⟩ | ⟨none_, -⟩
  · have shown_ := (NodeMap.mem_filter.mp (NodeMap.get_mem found)).1
    have same : o = existing := NodeMap.eq_of_id there shown_ (heir.id.symm.trans (NodeMap.get_id found).symm)
    rw [← same]
    exact heir
  · rw [none_] at found
    cases found

theorem Kept.sound (kept : Kept me before s) : Sound me before s := by
  have verified : ∀ n ∈ s.nodes.values, trusted n = true →
      ∃ o ∈ before.nodes.values, Heir me (selfHostname me before.nodes) o n ∧ trusted o = true ∧ n.address = o.address := by
    intro n member trust
    rcases kept.records n member with ⟨o, there, heir⟩ | ⟨-, none_, -⟩
    · have still : trusted o = true := heir.trusted.symm.trans trust
      refine ⟨o, there, heir, still, ?_⟩
      rcases heir.address with same | ⟨none_, -⟩
      · exact same
      · rw [still] at none_
        cases none_
    · rw [trust] at none_
      cases none_
  constructor
  · intro now later ip member
    rw [mem_nodeIps] at member ⊢
    obtain ⟨named, same | ⟨n, shows, kind, trust, at_⟩⟩ := member
    · exact ⟨named, .inl same⟩
    · obtain ⟨there, visible⟩ := NodeMap.mem_filter.mp shows
      obtain ⟨o, old, heir, still, same⟩ := verified n there trust
      rw [kept.hostname] at visible
      refine ⟨named, .inr ⟨o, NodeMap.mem_filter.mpr ⟨old, ?_⟩, heir.nodeType.symm.trans kind, still, ?_⟩⟩
      · rw [Bool.not_eq_true'] at visible ⊢
        apply Bool.eq_false_iff.mpr
        intro hidden
        rw [heir.hidden hidden] at visible
        cases visible
      · rw [same, heir.publicIp] at at_
        exact at_
  · intro n member trust
    obtain ⟨o, old, heir, still, same⟩ := verified n member trust
    exact ⟨o, old, heir.id.symm, still, same.symm⟩
  · intro n member
    rcases kept.records n member with ⟨o, there, heir⟩ | ⟨-, -, near⟩
    · rcases heir.address with same | ⟨-, near⟩
      · exact .inr ⟨o, there, heir.id.symm, same.symm⟩
      · exact .inl near
    · exact .inl near

theorem Kept.seed (kept : Kept me before s) {m : Node} (fresh : (shown me before.nodes).get m.id = none) (other : m.id ≠ me.id)
    (unverified : m.joinVerified = false) (near : isPrivateAddress m.address = true) :
    Kept me before { s with nodes := s.nodes.insert (seeded m) } where
  records n member := by
    rcases NodeMap.mem_insert.mp member with rfl | ⟨there, -⟩
    · refine .inr ⟨fresh, ?_, near⟩
      simp [trusted, seeded, unverified]
    · exact kept.records n there
  there o member := by
    obtain ⟨n, there, same⟩ := kept.there o member
    refine ⟨n, NodeMap.mem_insert.mpr (.inr ⟨there, fun clash => ?_⟩), same⟩
    exact NodeMap.get_none.mp fresh o member (same.symm.trans clash)
  hostname := by
    have mine : (s.nodes.insert (seeded m)).get me.id = s.nodes.get me.id := by
      rw [NodeMap.get_insert, if_neg (show me.id ≠ (seeded m).id from fun same => other same.symm)]
    rw [← kept.hostname]
    simp only [selfHostname, mine]
  deleted := kept.deleted

theorem Kept.modify (kept : Kept me before s) {id : String} {change : NodeMap.Change}
    (heirs : ∀ n ∈ s.nodes.values, n.id = id → (∃ o ∈ before.nodes.values, Heir me (selfHostname me before.nodes) o (change.apply n)) ∨
      ((shown me before.nodes).get id = none ∧ trusted (change.apply n) = false ∧ isPrivateAddress (change.apply n).address = true))
    (names : id ≠ me.id ∨ ∀ n, (change.apply n).hostname = n.hostname) :
    Kept me before { s with nodes := s.nodes.modify id change } where
  records n member := by
    rcases NodeMap.mem_modify.mp member with ⟨there, -⟩ | ⟨old, there, here, rfl⟩
    · exact kept.records n there
    · rcases heirs old there here with heir | fresh
      · exact .inl heir
      · rw [change.id, here]
        exact .inr fresh
  there o member := by
    obtain ⟨n, there, same⟩ := kept.there o member
    by_cases here : n.id = id
    · exact ⟨change.apply n, NodeMap.mem_modify.mpr (.inr ⟨n, there, here, rfl⟩), (change.id n).trans same⟩
    · exact ⟨n, NodeMap.mem_modify.mpr (.inl ⟨there, here⟩), same⟩
  hostname := by
    rw [← kept.hostname]
    simp only [selfHostname, NodeMap.get_modify]
    split
    · rename_i mine
      have same := names.resolve_left fun apart => apart mine.symm
      rw [Option.map_map, show Node.hostname ∘ change.apply = Node.hostname from funext same]
    · rfl
  deleted := kept.deleted

theorem Kept.rename (kept : Kept me before s) (name : String) :
    Kept me before { s with nodes := s.nodes.modify me.id { NodeSettings.none with displayName := some name }.change } := by
  refine kept.modify (fun n member here => ?_) (.inr fun _ => rfl)
  rcases kept.records n member with ⟨o, there, heir⟩ | ⟨fresh, untrusted, near⟩
  · exact .inl ⟨o, there, heir.id, heir.trusted, heir.nodeType, heir.publicIp, heir.address, heir.hidden⟩
  · rw [here] at fresh
    exact .inr ⟨fresh, untrusted, near⟩

theorem change_address (settings : NodeSettings) (n : Node) : (settings.change.apply n).address = settings.address.getD n.address := rfl

theorem mirrored_address (copy known n : Node) (intent : Option IdentityIntent) : ((mirrored copy known intent).change.apply n).address =
    if isUsableAddr known.address = true then known.address else copy.address := by
  have stated : (mirrored copy known intent).address = some (if isUsableAddr known.address = true then known.address else copy.address) := rfl
  rw [change_address, stated, Option.getD_some]

theorem Kept.mirror (kept : Kept me before s) {existing copy known : Node} {intent : Option IdentityIntent}
    (found : (shown me before.nodes).get known.id = some existing) (same : copy.address = existing.address) (other : known.id ≠ me.id)
    (harmless : isUsableAddr known.address = true → known.address ≠ existing.address →
      trusted existing = false ∧ isPrivateAddress known.address = true) :
    Kept me before { s with nodes := s.nodes.modify known.id (mirrored copy known intent).change } := by
  refine kept.modify (fun n member here => ?_) (.inl other)
  have heir := kept.heir found member here
  have visible := NodeMap.mem_filter.mp (NodeMap.get_mem found)
  refine .inl ⟨existing, visible.1, heir.id, heir.trusted, heir.nodeType, heir.publicIp, ?_, fun hidden => ?_⟩
  · rw [mirrored_address]
    split
    · rename_i usable
      by_cases still : known.address = existing.address
      · exact .inl still
      · exact .inr (harmless usable still)
    · exact .inl same
  · rw [hidden] at visible
    cases visible.2

variable {localAddrs : List String} {intents : String → Option IdentityIntent} {known m : Node} {post : Registry → Prop}

theorem trusting_isTombstoned {next : Bool → Program Section Unit} (sound : Sound me before s) :
    Trusting me before post (.request (.isTombstoned m) next) s ↔ Trusting me before post (next (decide (m.id ∈ s.deleted))) s := by
  constructor
  · exact fun trusting => trusting.2 _ _ ⟨0, rfl, rfl⟩
  · rintro trusting
    refine ⟨⟨sound, trivial⟩, ?_⟩
    rintro value after ⟨now, rfl, rfl⟩
    exact trusting

theorem trusting_updateRemote {next : Unit → Program Section Unit} (sound : Sound me before s) :
    Trusting me before post (.request (.updateRemote m) next) s ↔
      m.joinVerified = false ∧ Trusting me before post (next ()) { s with nodes := s.nodes.insert m } := by
  constructor
  · exact fun trusting => ⟨trusting.1.2, trusting.2 () _ ⟨0, rfl⟩⟩
  · rintro ⟨unverified, trusting⟩
    refine ⟨⟨sound, unverified⟩, ?_⟩
    rintro ⟨⟩ after ⟨now, rfl⟩
    exact trusting

theorem trusting_updateSettings {id : String} {settings : NodeSettings} (sound : Sound me before s) :
    Trusting me before post (.request (.updateSettings id settings) fun _ => .pure ()) s ↔
      post { s with nodes := s.nodes.modify id settings.change } := by
  constructor
  · exact fun trusting => trusting.2 _ _ ⟨0, rfl, rfl⟩
  · intro holds
    refine ⟨⟨sound, trivial⟩, ?_⟩
    rintro found after ⟨now, -, rfl⟩
    exact holds

theorem strong_of_id (localAddrs : List String) (same : known.id = me.id) : aboutMe me localAddrs known = true := by
  simp [aboutMe, gossipIdentityMatch, same]

theorem aboutMe_false (strange : (gossipIdentityMatch known me.id localAddrs).1 = false)
    (elsewhere : ¬(known.nodeType = "wolfstack" ∧ known.hostname = me.hostname ∧ known.port = me.port)) :
    aboutMe me localAddrs known = false := by
  simp only [aboutMe, strange, Bool.false_or]
  exact decide_eq_false elsewhere

theorem pullOne_keeps (copied : Copied me before.nodes current judge) (harmless : Harmless me localAddrs before known)
    (kept : Kept me before s) : Trusting me before (Kept me before) (pullOne me localAddrs intents current known) s := by
  unfold pullOne
  dsimp only
  split
  · split
    · unfold adoptDisplayName
      split
      · exact kept
      · exact (trusting_updateSettings kept.sound).mpr (kept.rename _)
    · exact kept
  · rename_i strange
    split
    · exact kept
    · rename_i elsewhere
      have other := aboutMe_false (Bool.eq_false_iff.mpr strange) elsewhere
      have apart : known.id ≠ me.id := by
        intro same
        rw [strong_of_id localAddrs same] at other
        cases other
      refine (trusting_isTombstoned kept.sound).mpr ?_
      rw [kept.deleted]
      change Trusting me before _ (if decide (known.id ∈ before.deleted) = true then _
        else match current.find? fun n => n.id = known.id with | some existing => _ | none => _) s
      split
      · exact kept
      · rename_i unburied
        rw [decide_eq_true_eq] at unburied
        have allowed := harmless other unburied
        split
        · rename_i copy found
          rw [copied.find, Option.map_eq_some_iff] at found
          obtain ⟨existing, there, rfl⟩ := found
          rw [there] at allowed
          split
          · obtain ⟨online, same⟩ := copied.judge existing
            exact (trusting_updateSettings kept.sound).mpr (kept.mirror there (by rw [same]) apart allowed)
          · exact kept
        · rename_i missing
          rw [copied.find, Option.map_eq_none_iff] at missing
          rw [missing] at allowed
          unfold pullNew
          split
          · exact kept
          · rename_i fresh
            rw [not_or, not_or, copied.gossipKnown] at fresh
            have unverified : known.joinVerified = false := by
              apply allowed (Bool.eq_false_iff.mpr fresh.1)
              · simpa [Option.isSome_iff_ne_none] using fresh.2.1
              · exact Bool.eq_true_of_not_eq_false fresh.2.2
            have near := Bool.eq_true_of_not_eq_false fresh.2.2
            exact (trusting_updateRemote kept.sound).mpr ⟨unverified, kept.seed missing apart unverified near⟩

theorem Trusting.sound {program : Program Section Unit} (trusting : Trusting me before (Sound me before) program s) :
    Sound me before s := by
  cases program with
  | pure value => exact trusting
  | request operation next => exact trusting.1.1

theorem Trusting.ends {program : Program Section Unit} (trusting : Trusting me before post program s) : ∃ last, post last := by
  obtain ⟨-, last, ended⟩ := Program.Alone.ends (fun s β operation => ⟨_, _, 0, operation.run_runs me 0 s⟩) trusting
  exact ⟨last, ended⟩

theorem harmless_of_trusting (copied : Copied me before.nodes current judge) (kept : Kept me before s)
    (sound : ∀ last, post last → Sound me before last)
    (trusting : Trusting me before post (pullOne me localAddrs intents current known) s) : Harmless me localAddrs before known := by
  intro other unburied
  simp only [aboutMe, Bool.or_eq_false_iff, decide_eq_false_iff_not] at other
  rw [pullOne, if_neg (Bool.eq_false_iff.mp other.1), if_neg other.2] at trusting
  have rest := (trusting_isTombstoned kept.sound).mp trusting
  rw [kept.deleted] at rest
  change Trusting me before post (if decide (known.id ∈ before.deleted) = true then _
    else match current.find? fun n => n.id = known.id with | some existing => _ | none => _) s at rest
  rw [if_neg (by simpa using unburied), copied.find] at rest
  cases found : (shown me before.nodes).get known.id with
  | some existing =>
    rw [found] at rest
    change Trusting me before post (if differs (judge existing) known (intents known.id) = true then _ else _) s at rest
    obtain ⟨online, judged⟩ := copied.judge existing
    intro usable moved
    have changes : differs (judge existing) known (intents known.id) = true := by
      simp [differs, usable, judged, Ne.symm moved]
    rw [if_pos changes] at rest
    have last := sound _ ((trusting_updateSettings kept.sound).mp rest)
    obtain ⟨n, there, same⟩ := kept.there existing (NodeMap.get_mem found)
    have here : n.id = known.id := same.trans (NodeMap.get_id found)
    have heir := kept.heir found there here
    have member := (@NodeMap.mem_modify _ _ _ (mirrored (judge existing) known (intents known.id)).change).mpr
      (.inr ⟨n, there, here, rfl⟩)
    have address : ((mirrored (judge existing) known (intents known.id)).change.apply n).address = known.address :=
      (mirrored_address _ known n _).trans (if_pos usable)
    have unmoved : ∀ o ∈ before.nodes.values, o.id = n.id → o.address ≠ known.address := by
      intro o old named at_
      have existed := (NodeMap.mem_filter.mp (NodeMap.get_mem found)).1
      rw [NodeMap.eq_of_id old existed (named.trans same)] at at_
      exact moved at_.symm
    constructor
    · rw [← heir.trusted, ← Bool.not_eq_true]
      intro trust
      obtain ⟨o, old, named, -, at_⟩ := last.verified _ member trust
      exact unmoved o old named (at_.trans address)
    · rw [← address]
      rcases last.near _ member with near | ⟨o, old, named, at_⟩
      · exact near
      · exact absurd (at_.trans address) (unmoved o old named)
  | none =>
    rw [found] at rest
    change Trusting me before post (pullNew current known) s at rest
    intro unknown sid near
    have fresh : ¬(gossipKnown current known = true ∨ (knownSid known).isNone = true ∨ isPrivateAddress known.address = false) := by
      rw [copied.gossipKnown, unknown, near]
      simpa [Option.isSome_iff_ne_none] using sid
    rw [pullNew, if_neg fresh] at rest
    exact ((trusting_updateRemote kept.sound).mp rest).1

theorem pullAll_trusting (copied : Copied me before.nodes current judge) (kept : Kept me before s) (knownNodes : List Node) :
    Trusting me before (Sound me before) (pullAll me localAddrs intents current knownNodes) s ↔
      ∀ known ∈ knownNodes, Harmless me localAddrs before known := by
  induction knownNodes generalizing s with
  | nil =>
    constructor
    · intro _ known member
      cases member
    · exact fun _ => kept.sound
  | cons known rest ih =>
    rw [List.forall_mem_cons]
    change Trusting me before _ ((pullOne me localAddrs intents current known).bind fun _ => _) s ↔ _
    rw [Trusting, Program.alone_bind]
    constructor
    · intro trusting
      have harmless := harmless_of_trusting copied kept (fun _ => Trusting.sound) trusting
      refine ⟨harmless, ?_⟩
      obtain ⟨last, remaining, still⟩ := Trusting.ends (Program.Alone.and trusting (pullOne_keeps copied harmless kept))
      exact (ih still).mp remaining
    · rintro ⟨harmless, others⟩
      exact (pullOne_keeps copied harmless kept).weaken fun _ last still => (ih still).mpr others

/-- The same for the rest of a list, where some nodes have been added already. -/
def RestUnverified (me : Me) (localAddrs : List String) (s : Registry) (added : List (Option String)) (members : List Node) : Prop :=
  ∀ earlier m later, members = earlier ++ m :: later → eligible me localAddrs s m = true → m.selfId ∉ added →
    (∀ e ∈ earlier, eligible me localAddrs s e = true → e.selfId ≠ m.selfId) → m.joinVerified = false

variable {added : List (Option String)} {rest : List Node}

theorem restUnverified_nil : RestUnverified me localAddrs s added [] := by
  intro earlier m later split_
  simp at split_

theorem restUnverified_skip (skipped : eligible me localAddrs s m = false ∨ m.selfId ∈ added) :
    RestUnverified me localAddrs s added (m :: rest) ↔ RestUnverified me localAddrs s added rest := by
  constructor
  · intro unverified earlier e later split_ let_ fresh firsts
    refine unverified (m :: earlier) e later (by rw [split_, List.cons_append]) let_ fresh ?_
    intro other member kept
    rcases List.mem_cons.mp member with rfl | before_
    · rcases skipped with out | known
      · rw [out] at kept
        cases kept
      · exact fun same => fresh (same ▸ known)
    · exact firsts other before_ kept
  · intro unverified earlier e later split_ let_ fresh firsts
    cases earlier with
    | nil =>
      obtain ⟨rfl, rfl⟩ := List.cons.inj split_
      rcases skipped with out | known
      · rw [out] at let_
        cases let_
      · exact absurd known fresh
    | cons first earlier =>
      obtain ⟨rfl, rfl⟩ := List.cons.inj split_
      exact unverified earlier e later rfl let_ fresh fun other member => firsts other (List.mem_cons_of_mem _ member)

theorem restUnverified_add (let_ : eligible me localAddrs s m = true) (fresh : m.selfId ∉ added) :
    RestUnverified me localAddrs s added (m :: rest) ↔
      m.joinVerified = false ∧ RestUnverified me localAddrs s (m.selfId :: added) rest := by
  constructor
  · intro unverified
    refine ⟨unverified [] m rest rfl let_ fresh (fun e member => by cases member), ?_⟩
    intro earlier e later split_ kept unknown firsts
    rw [List.mem_cons, not_or] at unknown
    refine unverified (m :: earlier) e later (by rw [split_, List.cons_append]) kept unknown.2 ?_
    intro other member also
    rcases List.mem_cons.mp member with rfl | before_
    · exact Ne.symm unknown.1
    · exact firsts other before_ also
  · rintro ⟨here, unverified⟩ earlier e later split_ kept unknown firsts
    cases earlier with
    | nil =>
      obtain ⟨rfl, rfl⟩ := List.cons.inj split_
      exact here
    | cons first earlier =>
      obtain ⟨rfl, rfl⟩ := List.cons.inj split_
      refine unverified earlier e later rfl kept ?_ fun other member => firsts other (List.mem_cons_of_mem _ member)
      rw [List.mem_cons, not_or]
      exact ⟨(firsts m List.mem_cons_self let_).symm, unknown⟩

theorem mergeMembers_trusting (copied : Copied me before.nodes current judge) (kept : Kept me before s) (members : List Node)
    (added : List (Option String)) : Trusting me before (Sound me before) (mergeMembers me localAddrs current added members) s ↔
      RestUnverified me localAddrs before added members := by
  induction members generalizing s added with
  | nil => exact ⟨fun _ => restUnverified_nil, fun _ => kept.sound⟩
  | cons m rest ih =>
    unfold mergeMembers
    split
    · rename_i skipped
      rw [ih kept added, restUnverified_skip]
      rcases skipped with out | known
      · exact .inl (by simp [eligible, out])
      · exact .inr known
    · rename_i passed
      rw [not_or, Bool.not_eq_true] at passed
      refine (trusting_isTombstoned kept.sound).trans ?_
      rw [kept.deleted]
      change Trusting me before _ (if decide (m.id ∈ before.deleted) = true then _
        else if memberKnown current m = true ∨ isPrivateAddress m.address = false then _ else _) s ↔ _
      split
      · rename_i buried
        rw [ih kept added, restUnverified_skip]
        exact .inl (by simp [eligible, of_decide_eq_true buried])
      · rename_i unburied
        rw [copied.memberKnown]
        split
        · rename_i stale
          rw [ih kept added, restUnverified_skip]
          refine .inl ?_
          rcases stale with known | far
          · simp [eligible, known]
          · simp [eligible, far]
        · rename_i fresh
          rw [not_or, Bool.not_eq_true, Bool.not_eq_false] at fresh
          have let_ : eligible me localAddrs before m = true := by
            simp [eligible, passed.1, fresh.1, fresh.2, of_decide_eq_false (Bool.eq_false_iff.mpr unburied)]
          have none_ : (shown me before.nodes).get m.id = none := by
            apply NodeMap.get_none.mpr
            intro n member same
            have other := List.any_eq_false.mp fresh.1 n member
            simp [same] at other
          have other : m.id ≠ me.id := by
            intro same
            have mine := passed.1
            simp [passedOver, same] at mine
          rw [restUnverified_add let_ passed.2]
          refine (trusting_updateRemote kept.sound).trans (and_congr_right fun unverified => ?_)
          exact ih (kept.seed none_ other unverified fresh.2) _

theorem keepsTrust_allNodes {next : List Node → Program Section Unit} {allowed : Prop}
    (merges : ∀ current judge, Copied me before.nodes current judge → (Trusting me before (Sound me before) (next current) before ↔ allowed)) :
    KeepsTrust me before (.request .allNodes next) ↔ allowed := by
  constructor
  · intro trusting
    obtain ⟨judge, copied⟩ := copied 0 (List.Perm.refl (allNodes me 0 before.nodes))
    exact (merges _ judge copied).mp (trusting.2 _ _ ⟨0, .refl _, rfl⟩)
  · intro fine
    refine ⟨⟨(Kept.refl me before).sound, trivial⟩, ?_⟩
    rintro current after ⟨now, copy, rfl⟩
    obtain ⟨judge, copied⟩ := Cluster.copied now copy
    exact (merges current judge copied).mpr fine

/-- A list of members keeps trust as it is when nobody that is added from it is verified;
gossip does when each of its entries is harmless. -/
theorem trust_not_widened (me : Me) (before : Registry) (localAddrs : List String) (intents : String → Option IdentityIntent)
    (members knownNodes : List Node) :
    (KeepsTrust me before (mergeMemberRefs me localAddrs members) ↔ MembersUnverified me localAddrs before members) ∧
      (KeepsTrust me before (pullGossip me localAddrs intents knownNodes) ↔
        ∀ known ∈ knownNodes, Harmless me localAddrs before known) := by
  constructor
  · refine keepsTrust_allNodes fun current judge copied => ?_
    refine (mergeMembers_trusting copied (.refl me before) members []).trans ?_
    simp only [RestUnverified, MembersUnverified, List.not_mem_nil, not_false_eq_true, true_imp_iff]
  · exact keepsTrust_allNodes fun current judge copied => pullAll_trusting copied (.refl me before) knownNodes

def joined : Registry where
  nodes := (NodeMap.empty.insert { peer "n2" "10.0.0.2" "ws-2" with joinVerified := true }).insert
    { peer "n1" "10.0.0.1" "n1" with isSelf := true }
  deleted := []

theorem KeepsTrust.run {program : Program Section Unit} (keeps : KeepsTrust me before program) (fuel : Nat) (check : Registry → Bool)
    (driven : (program.exec (fun _ _ s operation => some (operation.run me 0 s)) fuel 0 before).any
      (fun done => done.2.finished && check done.1) = true) : ∃ after, check after = true ∧ Sound me before after := by
  have lawful : ∀ (index : Nat) {β : Type} (s : Registry) (operation : Section β) after value,
      some (operation.run me 0 s) = some (after, value) → operation.Ran me s value after := by
    intro index β s operation after value same
    have ran := operation.run_runs me 0 s
    rw [Option.some.inj same] at ran
    exact ⟨0, ran⟩
  obtain ⟨-, after, passed, sound⟩ := Program.Alone.exec lawful keeps driven
  exact ⟨after, passed, sound⟩

/-- A member that is called verified becomes exempt, and a joined node moves to a public address. -/
theorem trust_is_widened :
    ¬KeepsTrust thisNode joined (mergeMemberRefs thisNode [] [{ peer "n9" "10.0.0.66" "ws-9" with joinVerified := true }]) ∧
      ¬KeepsTrust thisNode joined (pullGossip thisNode [] (fun _ => none) [peer "n2" "203.0.113.9" "ws-2"]) := by
  constructor
  · intro keeps
    obtain ⟨after, passed, sound⟩ := keeps.run 3
      (fun s => (shown thisNode s.nodes).values.any fun n => n.nodeType = "wolfstack" && trusted n && n.address = "10.0.0.66")
      (by decide +kernel)
    obtain ⟨n, shows, held⟩ := List.any_eq_true.mp passed
    simp only [Bool.and_eq_true, decide_eq_true_eq] at held
    have member : "10.0.0.66" ∈ wolfstackNodeIps thisNode 0 after.nodes :=
      mem_nodeIps.mpr ⟨by decide, .inr ⟨n, shows, held.1.1, held.1.2, .inl held.2.symm⟩⟩
    have there := mem_nodeIps.mp (sound.exempt 0 0 member)
    revert there
    decide +kernel
  · intro keeps
    obtain ⟨after, passed, sound⟩ := keeps.run 3
      (fun s => s.nodes.values.any fun n => n.id = "n2" && trusted n && n.address = "203.0.113.9") (by decide +kernel)
    obtain ⟨n, member, held⟩ := List.any_eq_true.mp passed
    simp only [Bool.and_eq_true, decide_eq_true_eq] at held
    obtain ⟨o, old, -, -, same⟩ := sound.verified n member held.1.2
    rw [held.2] at same
    revert o
    decide +kernel

end Cluster
