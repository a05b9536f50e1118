import WolfStack.WolfHa.PveRounds

/-! A round of a Proxmox container as its primary ships it: for each volume an incremental from
the newest snapshot that both sides list, or a full stream. -/

universe u

namespace WolfHa
open ZfsSend Effects

namespace PveNode
variable (sender receiver : PveNode) (vmid : String)

/-- `pve_replica_snapshots`: what this node says it has of a dataset. -/
def pveReplicaSnapshots (dataset : String) : List String :=
  match receiver.store.get vmid with
  | some e => if e.kind = .pveContainer ∧ dataset ∈ e.zfsDatasets then receiver.listOurs dataset vmid else []
  | none => []

def roundForm (config : String) (e : HaEntry) (round : PveRound) (dataset : String) (base : Option String) : ZfsForm where
  container := vmid
  dataset := dataset
  snapshot := round.snapshot
  base := base.getD ""
  config := config
  primary := some e.selfIdentity
  haMeta := some (.fromEntry e)

def receiveZfsPath : String := "/api/wolfha/receive-zfs"

/-- A request that is answered: what becomes of it on the standby, the answer's status, the bytes
counted there, whether `zfs send` went through, and what that printed. -/
structure Answered where
  fates : ReceiveFates
  status : String
  bytes : Nat
  sent : Bool
  stderr : String

/-- One request with a stream. Without an answer it may have arrived all the same. -/
inductive Attempt where
  | unanswered (arrived : Option ReceiveFates) (why stderr : String)
  | answered (answer : Answered)

/-- What is read of the answer. -/
def replyBody (bytes : Nat) : Except String Unit → String
  | .ok () => String.ofList (("\x7b\"bytes\":" ++ toString bytes ++ ",\"ok\":true\x7d").toList.take 400)
  | .error text => String.ofList ((errorBody text).toList.take 400)

def complaint (stderr : String) : String := if Auth.trim stderr = "" then "" else s!" (zfs send: {Auth.trim stderr})"

def streamFailed (dataset lastErr : String) : String := s!"ZFS stream of {dataset} failed: {lastErr}"

/-- `zfs_stream_to_peer`, one address after the other. That a standby needs a full stream is
final, and passed on as it says it. -/
def zfsStreamToPeer (f : ZfsForm) : List (Url × Attempt) → String → PveNode → PveNode × Except String Unit
  | [], lastErr, receiver => (receiver, .error (streamFailed f.dataset lastErr))
  | (url, .unanswered arrived why stderr) :: attempts, _, receiver =>
    let after := match arrived with
      | some fates => (receiver.wolfhaReceiveZfs f (sender.sends f) fates).1
      | none => receiver
    zfsStreamToPeer f attempts s!"{url.text receiveZfsPath}: {why}{complaint stderr}" after
  | (url, .answered answer) :: attempts, _, receiver =>
    let result := receiver.wolfhaReceiveZfs f (sender.sends f) answer.fates
    let body := replyBody answer.bytes result.2
    if result.2.isOk && answer.sent then (result.1, .ok ())
    else if contains body zfsNeedsSeed then (result.1, .error body)
    else zfsStreamToPeer f attempts s!"{url.text receiveZfsPath}: HTTP {answer.status} {body}{complaint answer.stderr}" result.1

/-- One volume of a round. `have_` is what the standby listed when the round began. -/
def shipDataset (config : String) (e : HaEntry) (round : PveRound) (have_ : List String)
    (attempts : Option String → List (Url × Attempt)) (dataset : String) : PveNode × Except String Unit :=
  let form := roundForm vmid config e round dataset
  match newestCommon (sender.listOurs dataset vmid) have_ with
  | some b =>
    match sender.zfsStreamToPeer (form (some b)) (attempts (some b)) "" receiver with
    | (after, .ok ()) => (after, .ok ())
    | (after, .error error) =>
      if contains error zfsNeedsSeed then sender.zfsStreamToPeer (form none) (attempts none) "" after else (after, .error error)
  | none => sender.zfsStreamToPeer (form none) (attempts none) "" receiver

def shipDatasets (config : String) (e : HaEntry) (round : PveRound) (remote : String → List String)
    (attempts : String → Option String → List (Url × Attempt)) : List String → PveNode → PveNode × Except String Unit
  | [], receiver => (receiver, .ok ())
  | dataset :: rest, receiver =>
    match sender.shipDataset receiver vmid config e round (remote dataset) (attempts dataset) dataset with
    | (after, .ok ()) => shipDatasets config e round remote attempts rest after
    | (after, .error error) => (after, .error error)

/-- `pve_ship_round_inner`, to a standby that answers with its inventory. -/
def pveShipRound (config : Except String String) (round : PveRound) (attempts : String → Option String → List (Url × Attempt)) :
    PveNode × Except String Unit :=
  let remote := receiver.pveReplicaSnapshots vmid
  match config with
  | .error error => (receiver, .error error)
  | .ok config =>
    match sender.store.get vmid with
    | some e =>
      if e.role = .primary then sender.shipDatasets vmid config e round remote attempts round.datasets receiver
      else (receiver, .error s!"'{vmid}' is not a primary on this node")
    | none => (receiver, .error s!"'{vmid}' is not a primary on this node")

end PveNode

theorem alphanum_dark {c : Char} (plain : c.isAlphanum = true) : Auth.isWhitespace c = false := by
  rcases Bool.or_eq_true_iff.mp plain with letter | digit
  · have range : 65 ≤ c.toNat ∧ c.toNat ≤ 122 := by
      delta Char.isAlpha Char.isUpper Char.isLower at letter
      simp only [Bool.or_eq_true, Bool.and_eq_true, decide_eq_true_eq, UInt32.le_iff_toNat_le] at letter
      simp only [Char.toNat]
      simp at letter ⊢
      omega
    simp only [Auth.isWhitespace, Bool.or_eq_false_iff, Bool.and_eq_false_iff, decide_eq_false_iff_not, beq_eq_false_iff_ne]
    omega
  · exact Auth.digit_dark digit

theorem trim_vmid {vmid : String} (valid : isVmid vmid = true) : Auth.trim vmid = vmid := by
  simp only [isVmid, Bool.and_eq_true, List.all_eq_true] at valid
  exact Auth.trim_clean vmid fun c member => Auth.digit_dark (valid.1.2 c member)

theorem trim_dataset {dataset : String} (safe : isSafeDataset dataset = true) : Auth.trim dataset = dataset := by
  simp only [isSafeDataset, Bool.and_eq_true, List.all_eq_true, Bool.or_eq_true, beq_iff_eq] at safe
  apply Auth.trim_clean
  intro c member
  rcases safe.2 c member with ((((plain | rfl) | rfl) | rfl) | rfl) | rfl
  · exact alphanum_dark plain
  all_goals decide

theorem trim_ours {name vmid : String} (mine : isOurs name vmid = true) : Auth.trim name = name := by
  obtain ⟨begins, digits⟩ := Bool.and_eq_true_iff.mp mine
  apply Auth.trim_ends
  · intro c first
    obtain ⟨rest, same⟩ := startsWith_iff.mp begins
    have head : name.toList.head? = some 'w' := by
      rw [← same]
      simp [snapPrefix]
    obtain rfl := Option.some.inj (head.symm.trans first)
    decide
  · intro c last
    by_cases dash : c = '-'
    · rw [dash]
      decide
    · apply Auth.digit_dark
      apply List.all_eq_true.mp digits
      unfold lastPiece
      rw [List.mem_reverse]
      rw [← List.head?_reverse] at last
      cases reversed : name.toList.reverse with
      | nil => simp [reversed] at last
      | cons d rest =>
        rw [reversed] at last
        obtain rfl : d = c := Option.some.inj last
        simp [dash]

theorem ours_filled {name vmid : String} (mine : isOurs name vmid = true) : name ≠ "" := by
  intro empty
  obtain ⟨rest, same⟩ := startsWith_iff.mp (Bool.and_eq_true_iff.mp mine).1
  rw [empty] at same
  simp [snapPrefix] at same

/-! ### Requests that nothing interrupts -/

/-- The names in a round are such as the container's own, and each volume is there once. -/
structure PveRound.Valid (round : PveRound) (vmid : String) : Prop where
  id : isVmid vmid = true
  datasets : ∀ ds ∈ round.datasets, isSafeDataset ds = true
  snapshot : isOurs round.snapshot vmid = true
  distinct : round.datasets.Nodup

namespace PveNode

/-- The old copy can be destroyed, and the stream is received and recorded. -/
def ReceiveFates.Calm (fates : ReceiveFates) : Prop := fates.destroyed = .ok () ∧ fates.Completes

/-- Of the standby's addresses one answers, nothing has arrived at those tried before it, and
nothing goes wrong with the request. -/
def Calm (attempts : List (Url × Attempt)) : Prop :=
  ∃ silent url answer rest, attempts = silent ++ (url, .answered answer) :: rest ∧
    (∀ attempt ∈ silent, ∃ why stderr, attempt.2 = .unanswered none why stderr) ∧ answer.fates.Calm ∧ answer.sent = true

/-- A standby, or a node that has nothing of the container yet, with the primary's layout:
no volume lies below another. -/
structure Standby (node : PveNode) (vmid : String) (datasets : List String) : Prop where
  isProxmox : node.isProxmox = true
  haveZfs : node.haveZfs = true
  stopped : node.running vmid = false
  entry : ∀ e, node.store.get vmid = some e → e.role = .replica ∧ e.kind = .pveContainer
  vacant : node.store.get vmid = none → node.configs vmid = false ∧ node.foreignConfigs vmid = [] ∧
    ∀ ds ∈ datasets, node.pool ds = none
  parents : ∀ ds ∈ datasets, ∃ p, parentDataset ds = some p ∧ node.datasetExists p = true ∧
    ∀ other ∈ datasets, p ≠ other ∧ startsWith p (other ++ "/") = false

variable {sender node : PveNode} {vmid config : String} {e : HaEntry} {round : PveRound} {ds : String} {base : Option String}
  {fates : ReceiveFates}

theorem asked_roundForm (config : String) (e : HaEntry) (valid : round.Valid vmid) (member : ds ∈ round.datasets)
    (mine : ∀ b, base = some b → isOurs b vmid = true) :
    asked (roundForm vmid config e round ds base) = ⟨vmid, ds, round.snapshot, base⟩ := by
  have plan : (if Auth.trim (base.getD "") = "" then none else some (Auth.trim (base.getD ""))) = base := by
    cases base with
    | none => rfl
    | some b =>
      rw [Option.getD_some, trim_ours (mine b rfl), if_neg (ours_filled (mine b rfl))]
  unfold asked roundForm
  simp only [trim_vmid valid.id, trim_dataset (valid.datasets ds member), trim_ours valid.snapshot, plan]

theorem Standby.gate (standby : node.Standby vmid round.datasets) (config : String) (e : HaEntry) (valid : round.Valid vmid)
    (member : ds ∈ round.datasets) (mine : ∀ b, base = some b → isOurs b vmid = true) :
    node.receiveGate (roundForm vmid config e round ds base) = .ok ⟨vmid, ds, round.snapshot, base⟩ := by
  have asks := asked_roundForm config e valid member mine
  apply receiveGate_ok.mpr
  refine ⟨?_, ?_, standby.stopped, ?_⟩
  · rw [fieldsGate_ok, asks]
    exact ⟨rfl, standby.isProxmox, standby.haveZfs, valid.id, valid.datasets ds member, valid.snapshot, mine⟩
  · unfold entryGate
    dsimp only
    cases held : node.store.get vmid with
    | none => rfl
    | some other =>
      obtain ⟨role, kind⟩ := standby.entry other held
      dsimp only
      rw [if_neg (by simp [role]), if_neg (by simp [kind])]
  · unfold vacancyGate
    dsimp only
    cases held : node.store.get vmid with
    | some _ => rfl
    | none =>
      obtain ⟨configs, foreign, absent⟩ := standby.vacant held
      simp [vmidConfigPaths, configs, foreign, datasetExists, absent ds member]

theorem Standby.received (standby : node.Standby vmid round.datasets) (valid : round.Valid vmid) (member : ds ∈ round.datasets)
    (mine : ∀ b, base = some b → isOurs b vmid = true) (kind : e.kind = .pveContainer) (completes : fates.Completes) :
    (node.wolfhaReceiveZfs (roundForm vmid config e round ds base)
      (sender.sends (roundForm vmid config e round ds base)) fates).1.Standby vmid round.datasets := by
  have asks := asked_roundForm config e valid member mine
  have meta_ : (roundForm vmid config e round ds base).haMeta.map (·.kind) = some .pveContainer :=
    congrArg some kind
  generalize roundForm vmid config e round ds base = form at *
  have host := node.receiveZfs_host form (sender.sends form) fates
  have store := node.receiveZfs_entry form (sender.sends form) fates
  have others := fun other (apart_ : other ≠ (asked form).dataset) =>
    node.receiveZfs_other form (sender.sends form) fates apart_
  have unused := fun gone => node.receiveZfs_vacant form (sender.sends form) fates gone (fun _ => sends_filled)
    fun _ _ => .inr completes
  generalize (node.wolfhaReceiveZfs form (sender.sends form) fates).1 = after at *
  have recorded : after.store = node.store ∨ ∃ left, after.store.get vmid = some left ∧
      left.role = .replica ∧ left.kind = .pveContainer := by
    rcases store with same | ⟨now, changed⟩
    · exact .inl same
    · have entry : (node.receivedStore form (asked form) now).get (asked form).vmid = some _ := get_receivedStore
      rw [← changed, asks] at entry
      refine .inr ⟨_, entry, ?_, ?_⟩
      · rw [receivedEntry_role]
        cases held : node.store.get vmid with
        | none => rfl
        | some e => exact (standby.entry e held).1
      · rw [receivedEntry_kind, meta_]
        rfl
  refine ⟨host.isProxmox ▸ standby.isProxmox, host.haveZfs ▸ standby.haveZfs, host.running ▸ standby.stopped, ?_, ?_, ?_⟩
  · intro left held
    rcases recorded with same | ⟨other, found, role, kind⟩
    · exact standby.entry left (same ▸ held)
    · obtain rfl := Option.some.inj (found.symm.trans held)
      exact ⟨role, kind⟩
  · intro none_
    rcases recorded with same | ⟨other, found, _⟩
    · rw [same] at none_
      obtain ⟨configs, foreign, absent⟩ := standby.vacant none_
      rw [asks] at unused
      rcases unused none_ with there | ⟨pool, config, _⟩
      · rw [same] at there
        exact absurd none_ there
      · exact ⟨config ▸ configs, host.foreignConfigs ▸ foreign, fun other inside => pool ▸ absent other inside⟩
    · exact absurd (found.symm.trans none_) nofun
  · intro other inside
    obtain ⟨p, parent, present, above⟩ := standby.parents other inside
    refine ⟨p, parent, ?_, above⟩
    obtain ⟨apart_, outside⟩ := above ds member
    rw [asks] at others
    rcases others p apart_ with same | ⟨_, below⟩
    · unfold datasetExists
      rw [same]
      exact present
    · exact absurd (outside.symm.trans below) nofun

theorem Standby.full {snaps : List Snap} (standby : node.Standby vmid round.datasets) (valid : round.Valid vmid)
    (member : ds ∈ round.datasets) (calm : fates.Calm)
    (sent : sender.sends (roundForm vmid config e round ds none) = some ⟨none, snaps⟩) :
    (node.wolfhaReceiveZfs (roundForm vmid config e round ds none)
      (sender.sends (roundForm vmid config e round ds none)) fates).2 = .ok () := by
  obtain ⟨destroyed, uncut, now, commit, committed, written, saved⟩ := calm
  have passed := standby.gate config e valid member (show ∀ b, none = some b → isOurs b vmid = true from fun b impossible => absurd impossible.symm (Option.some_ne_none b))
  obtain ⟨p, parent, present, above⟩ := standby.parents ds member
  obtain ⟨apart_, outside⟩ := above ds member
  -- Whether or not there was an old copy, the dataset is gone and its parent is there.
  have prepared : ∃ cleared : PveNode, cleared.pool ds = none ∧
      node.pvePrepareReceive (roundForm vmid config e round ds none) fates.destroyed =
        (cleared, .ok ⟨vmid, ds, round.snapshot, none⟩) := by
    unfold pvePrepareReceive
    rw [passed, destroyed]
    dsimp only
    cases there : node.datasetExists ds with
    | false =>
      refine ⟨node, by simpa [datasetExists] using there, ?_⟩
      have gate : node.parentGate ds = .ok () := by
        unfold parentGate
        rw [parent]
        dsimp only
        rw [if_pos present]
      simp only [Bool.false_eq_true, if_false, gate]
    | true =>
      refine ⟨node.destroyDataset ds, by simp [destroyDataset], ?_⟩
      have gate : (node.destroyDataset ds).parentGate ds = .ok () := by
        unfold parentGate
        rw [parent]
        dsimp only
        have kept : (node.destroyDataset ds).pool p = node.pool p := by
          unfold destroyDataset
          dsimp only
          rw [if_neg (not_or.mpr ⟨apart_, by simp [outside]⟩)]
        unfold datasetExists at present ⊢
        rw [kept, if_pos present]
      simp only [if_true, gate]
  obtain ⟨cleared, gone, ready⟩ := prepared
  have received : cleared.zfsReceive ⟨vmid, ds, round.snapshot, none⟩ ⟨none, snaps⟩ fates.cut =
      (cleared.setDataset ds (some snaps), true) := by
    unfold zfsReceive
    rw [gone, uncut, receive_whole]
  obtain ⟨done, _, _⟩ := commit_done (cleared.setDataset ds (some snaps)) (roundForm vmid config e round ds none)
    ⟨vmid, ds, round.snapshot, none⟩ now written saved
  unfold wolfhaReceiveZfs
  simp only [ready, sent, received, committed]
  split
  · rename_i failed
    rw [failed] at done
    cases done
  · rfl

/-- An incremental goes through where its base is the newest, and a full stream is asked for
where the base is not there. -/
theorem Standby.incremental {snaps : List Snap} {b : String} {first : Snap} (standby : node.Standby vmid round.datasets)
    (valid : round.Valid vmid) (member : ds ∈ round.datasets) (completes : fates.Completes) (mine : isOurs b vmid = true)
    (fits : b ∈ node.listOurs ds vmid → node.newest ds = some first)
    (sent : sender.sends (roundForm vmid config e round ds (some b)) = some ⟨some first, snaps⟩) :
    (node.wolfhaReceiveZfs (roundForm vmid config e round ds (some b))
        (sender.sends (roundForm vmid config e round ds (some b))) fates).2 = .ok () ∨
      ∃ why, (node.wolfhaReceiveZfs (roundForm vmid config e round ds (some b))
        (sender.sends (roundForm vmid config e round ds (some b))) fates).2 = .error (zfsNeedsSeed ++ why) := by
  obtain ⟨uncut, now, commit, committed, written, saved⟩ := completes
  have passed := standby.gate config e valid member
    (show ∀ fr, some b = some fr → isOurs fr vmid = true from fun _ same => Option.some.inj same ▸ mine)
  rcases prepare_incremental fates.destroyed passed rfl with ⟨held, ready⟩ | ⟨_, why, refused⟩
  · left
    obtain ⟨list, there, last⟩ := Option.bind_eq_some_iff.mp (fits held)
    have received : node.zfsReceive ⟨vmid, ds, round.snapshot, some b⟩ ⟨some first, snaps⟩ fates.cut =
        (node.setDataset ds (some (list ++ snaps)), true) := by
      unfold zfsReceive
      rw [there, uncut, receive_onto snaps last]
    obtain ⟨done, _, _⟩ := commit_done (node.setDataset ds (some (list ++ snaps)))
      (roundForm vmid config e round ds (some b)) ⟨vmid, ds, round.snapshot, some b⟩ now written saved
    unfold wolfhaReceiveZfs
    simp only [ready, sent, received, committed]
    split
    · rename_i failed
      rw [failed] at done
      exact absurd done nofun
    · rfl
  · refine .inr ⟨why, ?_⟩
    unfold wolfhaReceiveZfs
    rw [refused]

/-! ### A round that nothing interrupts -/

theorem zfsStreamToPeer_silent {silent : List (Url × Attempt)} (attempts : List (Url × Attempt)) (sender node : PveNode) (f : ZfsForm) (lastErr : String)
    (quiet : ∀ attempt ∈ silent, ∃ why stderr, attempt.2 = .unanswered none why stderr) :
    ∃ error, sender.zfsStreamToPeer f (silent ++ attempts) lastErr node = sender.zfsStreamToPeer f attempts error node := by
  induction silent generalizing lastErr with
  | nil => exact ⟨lastErr, rfl⟩
  | cons attempt silent ih =>
    obtain ⟨url, outcome⟩ := attempt
    obtain ⟨why, stderr, rfl⟩ := quiet _ List.mem_cons_self
    exact ih _ fun other member => quiet other (List.mem_cons_of_mem _ member)

theorem replyBody_marked (bytes : Nat) (why : String) : contains (replyBody bytes (.error (zfsNeedsSeed ++ why))) zfsNeedsSeed = true := by
  have whole : (errorBody (zfsNeedsSeed ++ why)).toList =
      "\x7b\"error\":\"".toList ++ zfsNeedsSeed.toList ++ (why.toList ++ "\"\x7d".toList) := by
    simp only [errorBody, String.toList_append, List.append_assoc]
  unfold contains replyBody
  rw [decide_eq_true_eq, String.toList_ofList, whole, List.take_append, List.take_of_length_le (by decide)]
  exact ⟨_, _, rfl⟩

/-- A calm request comes to one that the standby answers. -/
theorem Calm.received {attempts : List (Url × Attempt)} (calm : Calm attempts) (sender : PveNode) (f : ZfsForm) :
    ∃ fates : ReceiveFates, fates.Calm ∧ ∀ (node : PveNode) (lastErr : String),
      ((node.wolfhaReceiveZfs f (sender.sends f) fates).2 = .ok () → sender.zfsStreamToPeer f attempts lastErr node =
        ((node.wolfhaReceiveZfs f (sender.sends f) fates).1, .ok ())) ∧
      ∀ why, (node.wolfhaReceiveZfs f (sender.sends f) fates).2 = .error (zfsNeedsSeed ++ why) →
        ∃ body, contains body zfsNeedsSeed = true ∧ sender.zfsStreamToPeer f attempts lastErr node =
          ((node.wolfhaReceiveZfs f (sender.sends f) fates).1, .error body) := by
  obtain ⟨silent, url, answer, rest, rfl, quiet, calm, sent⟩ := calm
  refine ⟨answer.fates, calm, fun node lastErr => ?_⟩
  obtain ⟨error, same⟩ := zfsStreamToPeer_silent ((url, .answered answer) :: rest) sender node f lastErr quiet
  rw [same]
  refine ⟨fun received => ?_, fun why refused => ⟨_, replyBody_marked answer.bytes why, ?_⟩⟩
  · simp only [zfsStreamToPeer, received, sent, Except.isOk, Except.toBool, Bool.and_self, if_true]
  · simp only [zfsStreamToPeer, refused, replyBody_marked answer.bytes why, Except.isOk, Except.toBool, Bool.false_and,
      Bool.false_eq_true, if_false, if_true]

/-- What is left in `last_err` when each address has answered with the same refusal. -/
def lastError (lastErr : String) (answers : List (Url × Answered)) (body : String) : String :=
  answers.foldl (fun _ a => s!"{a.1.text receiveZfsPath}: HTTP {a.2.status} {body}{complaint a.2.stderr}") lastErr

/-- What there is to send of a volume, and to a copy that ends where an incremental starts. -/
structure Sendable (sender : PveNode) (copy : Option (List Snap)) (vmid : String) (form : Option String → ZfsForm)
    (common : Option String) : Prop where
  full : ∃ snaps, sender.sends (form none) = some ⟨none, snaps⟩
  incremental : ∀ b, common = some b → isOurs b vmid = true ∧
    ∃ first snaps, sender.sends (form (some b)) = some ⟨some first, snaps⟩ ∧
      ∀ list, copy = some list → list.getLast? = some first

theorem Sendable.cleared {copy : Option (List Snap)} {form : Option String → ZfsForm} {common : Option String}
    (sendable : sender.Sendable copy vmid form common) : sender.Sendable none vmid form common where
  full := sendable.full
  incremental b found := by
    obtain ⟨mine, first, snaps, sent, _⟩ := sendable.incremental b found
    exact ⟨mine, first, snaps, sent, nofun⟩

/-- The other volumes are there as before, or gone with a copy above them. -/
def Spared (ds : String) (before after : PveNode) : Prop :=
  ∀ other, other ≠ ds → after.pool other = before.pool other ∨ after.pool other = none

theorem Spared.trans {before between after : PveNode} (first : Spared ds before between) (second : Spared ds between after) :
    Spared ds before after := by
  intro other apart_
  rcases second other apart_ with same | gone
  · rw [same]
    exact first other apart_
  · exact .inr gone

theorem Standby.streamed (standby : node.Standby vmid round.datasets) (sender : PveNode) (config : String)
    (valid : round.Valid vmid) (member : ds ∈ round.datasets) (mine : ∀ b, base = some b → isOurs b vmid = true) (kind : e.kind = .pveContainer) (completes : fates.Completes) :
    (node.wolfhaReceiveZfs (roundForm vmid config e round ds base) (sender.sends (roundForm vmid config e round ds base))
        fates).1.Standby vmid round.datasets ∧
      Spared ds node (node.wolfhaReceiveZfs (roundForm vmid config e round ds base)
        (sender.sends (roundForm vmid config e round ds base)) fates).1 := by
  refine ⟨standby.received valid member mine kind completes, fun other apart_ => ?_⟩
  have asks := asked_roundForm config e valid member mine
  have same := node.receiveZfs_other (roundForm vmid config e round ds base)
    (sender.sends (roundForm vmid config e round ds base)) fates (by rw [asks]; exact apart_)
  exact same.imp_right And.left

theorem Standby.shipped {have_ : List String} {attempts : Option String → List (Url × Attempt)}
    (standby : node.Standby vmid round.datasets) (valid : round.Valid vmid) (member : ds ∈ round.datasets)
    (kind : e.kind = .pveContainer) (calm : ∀ base, Calm (attempts base))
    (sendable : sender.Sendable (node.pool ds) vmid (roundForm vmid config e round ds)
      (newestCommon (sender.listOurs ds vmid) have_)) :
    ∃ after, sender.shipDataset node vmid config e round have_ attempts ds = (after, .ok ()) ∧
      after.Standby vmid round.datasets ∧ Spared ds node after := by
  obtain ⟨snaps, whole⟩ := sendable.full
  have plain : ∀ b, none = some b → isOurs b vmid = true := nofun
  have full : ∀ other : PveNode, other.Standby vmid round.datasets →
      ∃ after, sender.zfsStreamToPeer (roundForm vmid config e round ds none) (attempts none) "" other = (after, .ok ()) ∧
        after.Standby vmid round.datasets ∧ Spared ds other after := by
    intro other standby
    obtain ⟨fates, calm, arrives⟩ := (calm none).received sender (roundForm vmid config e round ds none)
    exact ⟨_, (arrives other "").1 (standby.full valid member calm whole),
      standby.streamed sender config valid member plain kind calm.2⟩
  unfold shipDataset
  dsimp only
  cases common : newestCommon (sender.listOurs ds vmid) have_ with
  | none => exact full node standby
  | some b =>
    obtain ⟨mine, first, later, sent, ends⟩ := sendable.incremental b common
    have named : ∀ fr, some b = some fr → isOurs fr vmid = true := fun _ same => Option.some.inj same ▸ mine
    obtain ⟨fates, calm, arrives⟩ := (calm (some b)).received sender (roundForm vmid config e round ds (some b))
    have streamed := standby.streamed sender config valid member named kind calm.2
    have fits : b ∈ node.listOurs ds vmid → node.newest ds = some first := by
      intro held
      obtain ⟨list, _, there, _⟩ := mem_listOurs.mp held
      unfold newest
      rw [there]
      exact ends list there
    dsimp only
    rcases standby.incremental valid member calm.2 mine fits sent with received | ⟨why, refused⟩
    · rw [(arrives node "").1 received]
      exact ⟨_, rfl, streamed⟩
    · obtain ⟨body, marked, error⟩ := (arrives node "").2 why refused
      rw [error]
      dsimp only
      rw [if_pos marked]
      obtain ⟨after, done, still, others⟩ := full _ streamed.1
      exact ⟨after, done, still, streamed.2.trans others⟩

/-- The volumes still to come are as they were before the round, or gone with a copy above them. -/
theorem Standby.ships {remote : String → List String} {attempts : String → Option String → List (Url × Attempt)} {pool : Pool}
    {rest : List String} (standby : node.Standby vmid round.datasets) (valid : round.Valid vmid)
    (members : ∀ ds ∈ rest, ds ∈ round.datasets) (distinct : rest.Nodup) (kind : e.kind = .pveContainer)
    (calm : ∀ ds base, Calm (attempts ds base)) (left : ∀ ds ∈ rest, node.pool ds = pool ds ∨ node.pool ds = none)
    (sendable : ∀ ds ∈ rest, sender.Sendable (pool ds) vmid (roundForm vmid config e round ds)
      (newestCommon (sender.listOurs ds vmid) (remote ds))) :
    (sender.shipDatasets vmid config e round remote attempts rest node).2 = .ok () := by
  induction rest generalizing node with
  | nil => rfl
  | cons ds rest ih =>
    obtain ⟨apart_, distinct⟩ := List.nodup_cons.mp distinct
    have here : sender.Sendable (node.pool ds) vmid (roundForm vmid config e round ds)
        (newestCommon (sender.listOurs ds vmid) (remote ds)) := by
      rcases left ds List.mem_cons_self with same | gone
      · rw [same]
        exact sendable ds List.mem_cons_self
      · rw [gone]
        exact (sendable ds List.mem_cons_self).cleared
    obtain ⟨after, done, still, others⟩ := standby.shipped valid (members ds List.mem_cons_self) kind (calm ds) here
    unfold shipDatasets
    rw [done]
    apply ih still (fun other inside => members other (List.mem_cons_of_mem ds inside)) distinct
    · intro other inside
      have differs : other ≠ ds := fun same => apart_ (same ▸ inside)
      rcases others other differs with same | gone
      · rw [same]
        exact left other (List.mem_cons_of_mem ds inside)
      · exact .inr gone
    · intro other inside
      exact sendable other (List.mem_cons_of_mem ds inside)

end PveNode

namespace PveFleet
variable {ι : Type u} [DecidableEq ι] {vmid : String} {s : PveFleet ι} {volumes : List String} {round : PveRound}

/-- The acting primary has taken the round's snapshot, and nothing after it, of volumes that the
standby has no such snapshot of. -/
structure Due (s : PveFleet ι) (vmid : String) (volumes : List String) (standby : ι) (round : PveRound) : Prop where
  valid : round.Valid vmid
  volumes : ∀ ds ∈ round.datasets, ds ∈ volumes
  taken : ∀ ds ∈ round.datasets, ∃ snap, (s.nodes s.acting).newest ds = some snap ∧ snap.name = round.snapshot
  fresh : ∀ ds ∈ round.datasets, round.snapshot ∉ (s.nodes standby).listOurs ds vmid

omit [DecidableEq ι] in
theorem Kept.ends {standby : ι} {ds base : String} {mine list : List Snap} (kept : s.Kept vmid volumes) (other : standby ≠ s.acting)
    (volume : ds ∈ volumes) (there : s.at_ s.acting ds = some mine) (copied : s.at_ standby ds = some list)
    (common : newestCommon ((s.nodes s.acting).listOurs ds vmid) ((s.nodes standby).listOurs ds vmid) = some base) :
    ∃ last, list.getLast? = some last ∧ last ∈ ours mine vmid ∧ last.name = base := by
  obtain ⟨left, right, newest⟩ := newestCommon_some common
  obtain ⟨_, x, had, inside, xOurs, rfl⟩ := PveNode.mem_listOurs.mp left
  obtain rfl := Option.some.inj (there.symm.trans had)
  obtain ⟨_, y, has, member, yOurs, same⟩ := PveNode.mem_listOurs.mp right
  obtain rfl := Option.some.inj (copied.symm.trans has)
  have x_ : x ∈ ours mine vmid := mem_ours.mpr ⟨inside, xOurs⟩
  have y_ : y ∈ ours list vmid := mem_ours.mpr ⟨member, yOurs⟩
  obtain rfl := kept.single s.acting standby ds mine list there copied x x_ y y_ same.symm
  obtain ⟨last, ends, both⟩ := kept.linked standby other ds volume mine list there copied ⟨x, y_, inside⟩
  obtain ⟨held, lastOurs⟩ := mem_ours.mp both
  have below : snapshotTs last.name ≤ snapshotTs x.name :=
    newest last.name (PveNode.mem_listOurs.mpr ⟨mine, last, there, held, lastOurs, rfl⟩)
      (PveNode.mem_listOurs.mpr ⟨list, last, copied, List.mem_of_getLast? ends, lastOurs, rfl⟩)
  rcases (kept.rising standby ds list copied).last ends y_ lastOurs with rfl | above
  · exact ⟨x, ends, both, rfl⟩
  · exact absurd below (Nat.not_le_of_lt above)

omit [DecidableEq ι] in
theorem Kept.sendable {standby : ι} {ds config : String} {e : HaEntry} (kept : s.Kept vmid volumes) (other : standby ≠ s.acting)
    (due : s.Due vmid volumes standby round) (member : ds ∈ round.datasets) :
    (s.nodes s.acting).Sendable (s.at_ standby ds) vmid (PveNode.roundForm vmid config e round ds)
      (newestCommon ((s.nodes s.acting).listOurs ds vmid) ((s.nodes standby).pveReplicaSnapshots vmid ds)) := by
  obtain ⟨newest, last, target⟩ := due.taken ds member
  obtain ⟨mine, there, ends⟩ := Option.bind_eq_some_iff.mp last
  have sends : ∀ base, (∀ b, base = some b → isOurs b vmid = true) →
      (s.nodes s.acting).sends (PveNode.roundForm vmid config e round ds base) = send mine base newest.name := by
    intro base named
    unfold PveNode.sends
    rw [PveNode.asked_roundForm config e due.valid member named]
    dsimp only
    rw [there, target]
    rfl
  constructor
  · obtain ⟨snaps, sent⟩ := send_some (List.mem_of_getLast? ends)
    exact ⟨snaps, (sends none nofun).trans sent⟩
  · intro b common
    have listed : b ∈ (s.nodes standby).listOurs ds vmid ∧
        newestCommon ((s.nodes s.acting).listOurs ds vmid) ((s.nodes standby).listOurs ds vmid) = some b := by
      unfold PveNode.pveReplicaSnapshots at common
      split at common
      · split at common
        · exact ⟨(newestCommon_some common).2.1, common⟩
        · exact absurd (newestCommon_some common).2.1 List.not_mem_nil
      · exact absurd (newestCommon_some common).2.1 List.not_mem_nil
    obtain ⟨held, common⟩ := listed
    obtain ⟨list, _, copied, _⟩ := PveNode.mem_listOurs.mp held
    obtain ⟨shared, closes, both, rfl⟩ := kept.ends other (due.volumes ds member) there copied common
    obtain ⟨inside, own⟩ := mem_ours.mp both
    have apart_ : shared.name ≠ newest.name := fun same => due.fresh ds member (target ▸ same ▸ held)
    obtain ⟨first, snaps, sent, had, named⟩ := send_newest ends inside apart_
    obtain rfl : first = shared :=
      (kept.rising s.acting ds mine there).named (mem_ours.mpr ⟨had, named ▸ own⟩) both named
    refine ⟨own, first, snaps, (sends _ fun _ same => Option.some.inj same ▸ own).trans sent, fun copy here => ?_⟩
    obtain rfl := Option.some.inj (copied.symm.trans here)
    exact closes

omit [DecidableEq ι] in
theorem Kept.shipped {standby : ι} {config : String} {e : HaEntry} {attempts : String → Option String → List (Url × PveNode.Attempt)}
    (kept : s.Kept vmid volumes) (other : standby ≠ s.acting) (primary : (s.nodes s.acting).store.get vmid = some e)
    (role : e.role = .primary) (kind : e.kind = .pveContainer) (due : s.Due vmid volumes standby round)
    (fits : (s.nodes standby).Standby vmid round.datasets) (calm : ∀ ds base, PveNode.Calm (attempts ds base)) :
    ((s.nodes s.acting).pveShipRound (s.nodes standby) vmid (.ok config) round attempts).2 = .ok () := by
  unfold PveNode.pveShipRound
  simp only [primary, role, if_true]
  exact fits.ships due.valid (fun _ member => member) due.valid.distinct kind calm (fun _ _ => .inl rfl)
    fun ds member => kept.sendable other due member

def volume : String := "rpool/data/subvol-104-disk-0"

def primaryEntry : HaEntry := { HaEntry.blank "104" .pveContainer none with role := .primary, zfsDatasets := [volume] }

def twoNodes : PveFleet Bool where
  nodes first :=
    { name := toString first
      isProxmox := true
      haveZfs := true
      pool := fun ds => if ds = "rpool/data" ∨ ds = volume ∧ first = true then some [] else none
      running := fun _ => false
      configs := fun _ => first
      foreignConfigs := fun _ => []
      store := ⟨if first then [primaryEntry] else []⟩ }
  acting := true
  rounds _ := []

end PveFleet

end WolfHa
