import WolfStack.WolfHa.SharedStore
import WolfStack.WolfHa.Sync

/-! Sync rounds of different containers share wolfha.json. A round reads and changes
its own entry only, but writes the whole file: it is independent of the others as long
as no save of theirs comes between its own load and save. -/

namespace WolfHa
open Effects
open Effects.Program (Follows Only send)

section

variable {c : String} {known : Option HaStore} {α : Type}

theorem only_send {β : Type} {operation : Request β} (outside : operation.Outside) :
    (send operation).Only Request.Outside :=
  ⟨outside, fun _ => trivial⟩

theorem confined_load {next next' : HaStore → Prog α}
    (rest : ∀ store store', store.get c = store'.get c → Confined c (some store) (next store) (next' store')) :
    Confined c known (loadStore.bind next) (loadStore.bind next') :=
  .load rest

theorem confined_save {loaded store store' : HaStore} {change : HaEntry → HaEntry} {next : Except String Unit → Prog α}
    (same : store.get c = store'.get c) (last : loaded = store) (named : ∀ e, (change e).container = e.container)
    (rest : ∀ answer, Confined c (some loaded) (next answer) (next answer)) :
    Confined c (some loaded) ((send (.save (store.modify c change))).bind next)
      ((send (.save (store'.modify c change))).bind next) := by
  subst last
  refine .save ?_ (fun other apart => ?_) rest
  · rw [HaStore.get_modify_self _ _ _ named, HaStore.get_modify_self _ _ _ named, same]
  · exact HaStore.get_modify_other _ _ named apart

theorem only_buildNodeUrls (address : String) (port : UInt16) : (buildNodeUrls address port).Only Request.Outside := by
  refine Only.bind (only_send rfl) fun ip => ?_
  cases ip <;> exact trivial

theorem only_ok {ε β : Type} {first : Prog (Except ε β)} {next : Except ε β → Prog α} (outside : first.Only Request.Outside)
    (failed : ∀ e, (next (.error e)).Only Request.Outside) (rest : ∀ value, (next (.ok value)).Only Request.Outside) :
    (first.bind next).Only Request.Outside := by
  refine Only.bind outside fun answer => ?_
  cases answer with
  | error e => exact failed e
  | ok value => exact rest value

theorem only_openEfivars (vars : Option String) : (openEfivars vars).Only Request.Outside := by
  cases vars with
  | none => exact trivial
  | some path =>
    refine Only.bind (only_send rfl) fun opened => ?_
    cases opened <;> exact trivial

theorem only_postVmDelta (form : Part → VmDeltaForm) (path : String) (urls : List Url) (lastErr : String) :
    (postVmDelta form path urls lastErr).Only Request.Outside := by
  induction urls generalizing lastErr with
  | nil => exact trivial
  | cons url urls ih =>
    refine only_ok (only_send rfl) (fun _ => trivial) fun part => Only.bind (only_send rfl) fun vars => ?_
    refine only_ok (only_openEfivars vars) (fun _ => trivial) fun _ => Only.bind (only_send rfl) fun answer => ?_
    cases answer with
    | success _ => exact trivial
    | failure status body => exact ih _
    | unreachable why => exact ih _

theorem only_vmTakeDelta (name : String) : (vmTakeDelta name).Only Request.Outside := by
  refine only_ok (only_send rfl) (fun _ => trivial) fun config => ?_
  refine only_ok (only_send rfl) (fun _ => trivial) fun _ => Only.bind (only_send rfl) fun uuid => ?_
  exact only_ok (only_send rfl) (fun _ => trivial) fun _ => Only.bind (only_send rfl) fun size => trivial

theorem only_takeSeedImage (name disk out : String) : (takeSeedImage name disk out).Only Request.Outside := by
  refine Only.bind (only_send rfl) fun running => ?_
  cases running with
  | true => exact only_send rfl
  | false => exact only_ok (only_send rfl) (fun _ => trivial) fun _ => Only.bind (only_send rfl) fun _ => trivial

theorem only_vmTakeSeed (name : String) : (vmTakeSeed name).Only Request.Outside := by
  refine only_ok (only_send rfl) (fun _ => trivial) fun config => ?_
  refine only_ok (only_send rfl) (fun _ => trivial) fun _ => Only.bind (only_send rfl) fun uuid => ?_
  exact only_ok (only_takeSeedImage _ _ _) (fun _ => trivial) fun _ => Only.bind (only_send rfl) fun size => trivial

theorem only_postVmSeed (form : Part → VmSeedForm) (path : String) (vars : Option String) (urls : List Url)
    (lastErr : String) : (postVmSeed form path vars urls lastErr).Only Request.Outside := by
  induction urls generalizing lastErr with
  | nil => exact trivial
  | cons url urls ih =>
    refine only_ok (only_send rfl) (fun _ => trivial) fun part => ?_
    refine only_ok (only_openEfivars vars) (fun _ => trivial) fun _ => Only.bind (only_send rfl) fun answer => ?_
    cases answer with
    | success _ => exact trivial
    | failure status body => exact ih _
    | unreachable why => exact ih _

theorem only_vmSeedReplica (container : String) (peer : HaPeer) (path : String) (config : VmConfig) (chain : String)
    (primary : HaPeer) (haMeta : HaMeta) :
    (vmSeedReplica container peer path config chain primary haMeta).Only Request.Outside :=
  Only.bind (only_send rfl) fun _ => Only.bind (only_buildNodeUrls _ _) fun _ => only_postVmSeed _ _ _ _ _

theorem only_failed (message : String) : (failed message).Only Request.Outside := Only.bind (only_send rfl) fun _ => trivial

theorem only_behindOf (lost : PendingDelta) (peers : List HaPeer) : (behindOf lost peers).Only Request.Outside := by
  induction peers with
  | nil => exact trivial
  | cons peer peers ih => exact Only.bind (only_send rfl) fun here => Only.bind ih fun rest => trivial

theorem only_markBehind (ids : List String) (statuses : List (String × HaSyncStatus)) :
    (markBehind ids statuses).Only Request.Outside := by
  induction ids generalizing statuses with
  | nil => exact trivial
  | cons id ids ih => exact Only.bind (only_send rfl) fun now => ih _

theorem only_allApplied (p : PendingDelta) (peers : List HaPeer) : (allApplied p peers).Only Request.Outside := by
  induction peers with
  | nil => exact trivial
  | cons peer peers ih =>
    refine Only.bind (only_send rfl) fun here => ?_
    split
    · exact trivial
    · exact ih

theorem only_stagedDelta (recorded : Option PendingDelta) : (stagedDelta recorded).Only Request.Outside := by
  cases recorded with
  | none => exact trivial
  | some p =>
    refine Only.bind (only_send rfl) fun there => ?_
    cases there <;> exact trivial

/-! ### What reads and changes one entry -/

theorem settingsOf_congr {store store' : HaStore} (same : store.get c = store'.get c) :
    settingsOf store c = settingsOf store' c := by
  rw [settingsOf, settingsOf, same]

theorem confined_syncVmReplica (peer : HaPeer) (path prev next : String) :
    Confined c known (syncVmReplica c peer path prev next) (syncVmReplica c peer path prev next) := by
  refine .bind_only (only_send rfl) fun started => .bind_only (only_send rfl) fun bytes => .bind ?_ fun _ sent => ?_
  · refine confined_load fun store store' same => ?_
    rw [settingsOf_congr same]
    exact .of_only (Only.bind (only_send rfl) fun config => Only.bind (only_buildNodeUrls _ _) fun urls =>
      only_postVmDelta _ _ _ _)
  · cases sent <;> exact .pure

theorem confined_stageSeed : Confined c known (stageSeed c) (stageSeed c) := by
  refine .bind_only (only_vmTakeSeed c) fun taken => ?_
  cases taken with
  | error e => exact .pure
  | ok image =>
    obtain ⟨path, size, config⟩ := image
    refine confined_load fun store store' same => ?_
    rw [← same]
    cases store.get c with
    | none => exact .of_only (Only.bind (only_send rfl) fun _ => trivial)
    | some e =>
      dsimp only
      cases seedToken e with
      | some token => exact .pure
      | none =>
        refine .bind_only (only_send rfl) fun minted => confined_save same rfl (fun _ => rfl) fun saved => ?_
        cases saved with
        | error err => exact .of_only (Only.bind (only_send rfl) fun _ => trivial)
        | ok _ => exact .pure

theorem confined_markApplied (nodeId : String) : Confined c known (markApplied c nodeId) (markApplied c nodeId) := by
  refine confined_load fun store store' same => ?_
  rw [← same]
  cases (store.get c).bind HaEntry.pendingVmDelta with
  | none => exact .pure
  | some p =>
    dsimp only
    split
    · exact .pure
    · exact confined_save same rfl (fun _ => rfl) fun _ => .pure

theorem confined_shipSeed (peer : HaPeer) (seed : StagedVmSeed) :
    Confined c known (shipSeed c peer seed) (shipSeed c peer seed) := by
  refine confined_load fun store store' same => ?_
  rw [← same]
  cases store.get c with
  | none => exact .of_only (only_failed _)
  | some e =>
    dsimp only
    split
    · exact .of_only (only_failed _)
    · cases e.selfIdentity with
      | none => exact .of_only (only_failed _)
      | some me =>
        refine .bind_only (only_vmSeedReplica _ _ _ _ _ _ _) fun sent => ?_
        cases sent with
        | error e => exact .of_only (only_failed _)
        | ok _ => exact .bind (confined_markApplied _) fun _ _ => .of_only (Only.bind (only_send rfl) fun _ => trivial)

theorem confined_reseed (peer : HaPeer) (staged : Option StagedVmSeed) :
    Confined c known (vmReseedReplicaRound c peer staged) (vmReseedReplicaRound c peer staged) := by
  cases staged with
  | some seed => exact .bind (confined_shipSeed peer seed) fun _ _ => .pure
  | none =>
    refine .bind confined_stageSeed fun _ image => ?_
    cases image with
    | error message => exact .of_only (Only.bind (only_failed _) fun _ => trivial)
    | ok seed => exact .bind (confined_shipSeed peer seed) fun _ _ => .pure

theorem confined_breakChain (peers : List HaPeer) (lost : PendingDelta) :
    Confined c known (breakChain c peers lost) (breakChain c peers lost) := by
  refine .bind_only (only_behindOf _ _) fun behind => confined_load fun store store' same => ?_
  rw [← same]
  cases store.get c with
  | none => exact .pure
  | some e => exact .bind_only (only_markBehind _ _) fun statuses => confined_save same rfl (fun _ => rfl) fun _ => .pure

theorem confined_takeAndRecord : Confined c known (takeAndRecord c) (takeAndRecord c) := by
  refine .bind_only (only_vmTakeDelta c) fun taken => ?_
  cases taken with
  | error e => exact .pure
  | ok delta =>
    refine .bind_only (only_send rfl) fun takenAt => .bind_only (only_send rfl) fun token => ?_
    refine confined_load fun store store' same => ?_
    rw [← same]
    cases store.get c with
    | none => exact .pure
    | some e => exact confined_save same rfl (fun _ => rfl) fun _ => .pure

theorem confined_roundWork (kind : SubjectKind) (pending : Option PendingDelta) :
    Confined c known (roundWork c kind pending) (roundWork c kind pending) := by
  cases kind with
  | container => exact .pure
  | pveContainer =>
    refine .bind_only (only_send rfl) fun taken => ?_
    cases taken <;> exact .pure
  | vm =>
    refine .bind ?_ fun _ delta => ?_
    · cases pending with
      | some p => exact .pure
      | none =>
        refine .bind_only (only_send rfl) fun running => ?_
        cases running with
        | false => exact .pure
        | true =>
          refine .bind confined_takeAndRecord fun _ taken => ?_
          cases taken <;> exact .pure
    · cases delta <;> exact .pure

theorem confined_shipDelta (p : PendingDelta) (peer : HaPeer) (staged : Option StagedVmSeed) :
    Confined c known (shipDelta c p peer staged) (shipDelta c p peer staged) := by
  rw [shipDelta]
  split
  · exact .of_only (Only.bind (only_send rfl) fun _ => trivial)
  · refine confined_load fun store store' same => ?_
    rw [same]
    have marked (known : Option HaStore) (st : HaSyncStatus) (staged : Option StagedVmSeed) : Confined c known
        (if st.ok = true then (markApplied c peer.nodeId).bind fun _ => .pure (st, staged) else .pure (st, staged))
        (if st.ok = true then (markApplied c peer.nodeId).bind fun _ => .pure (st, staged) else .pure (st, staged)) := by
      split
      · exact .bind (confined_markApplied _) fun _ _ => .pure
      · exact .pure
    refine .bind (confined_syncVmReplica _ _ _ _) fun _ st => ?_
    dsimp only
    split
    · exact .bind (confined_reseed peer staged) fun known result => marked known result.1 result.2
    · exact marked _ st staged

theorem confined_visitStopped (peer : HaPeer) (staged : Option StagedVmSeed) :
    Confined c known (visitStopped c peer staged) (visitStopped c peer staged) := by
  refine confined_load fun store store' same => ?_
  rw [same]
  split
  · exact confined_reseed peer staged
  · exact .of_only (Only.bind (only_send rfl) fun _ => trivial)

theorem confined_syncPeer (work : RoundWork) (peer : HaPeer) (staged : Option StagedVmSeed) :
    Confined c known (syncPeer c work peer staged) (syncPeer c work peer staged) := by
  cases work with
  | vm delta =>
    cases delta with
    | some p => exact confined_shipDelta p peer staged
    | none => exact confined_visitStopped peer staged
  | pve round =>
    refine .bind ?_ fun _ _ => .pure
    refine confined_load fun store store' same => ?_
    rw [same]
    exact .of_only (only_send rfl)
  | rootfs =>
    refine .bind ?_ fun _ _ => .pure
    refine confined_load fun store store' same => ?_
    rw [settingsOf_congr same]
    exact .of_only (only_send rfl)

theorem confined_saveStatus (nodeId : String) (status : HaSyncStatus) :
    Confined c known (saveStatus c nodeId status) (saveStatus c nodeId status) := by
  refine confined_load fun store store' same => ?_
  rw [← same]
  cases store.get c with
  | none => exact .pure
  | some e => exact confined_save same rfl (fun _ => rfl) fun _ => .pure

theorem confined_syncPeers (work : RoundWork) (peers : List HaPeer) (staged : Option StagedVmSeed) (allOk : Bool) :
    Confined c known (syncPeers c work peers staged allOk) (syncPeers c work peers staged allOk) := by
  induction peers generalizing staged allOk known with
  | nil => exact .pure
  | cons peer peers ih =>
    refine .bind_only (only_send rfl) fun here => ?_
    cases here with
    | true => exact ih _ _
    | false =>
      refine .bind (confined_syncPeer work peer staged) fun _ result => ?_
      exact .bind (confined_saveStatus _ _) fun _ _ => ih _ _

theorem confined_advanceChain (peers : List HaPeer) : Confined c known (advanceChain c peers) (advanceChain c peers) := by
  refine confined_load fun store store' same => ?_
  rw [← same]
  cases (store.get c).bind HaEntry.pendingVmDelta with
  | none => exact .pure
  | some p =>
    refine .bind_only (only_allApplied p peers) fun all => ?_
    cases all with
    | false => exact .pure
    | true => exact .bind_only (only_send rfl) fun _ => confined_save same rfl (fun _ => rfl) fun _ => .pure

theorem confined_finishRound (work : RoundWork) (peers : List HaPeer) (staged : Option StagedVmSeed) (allOk : Bool) :
    Confined c known (finishRound c work peers staged allOk) (finishRound c work peers staged allOk) := by
  cases staged with
  | none =>
    cases work with
    | pve round => exact .bind_only (only_send rfl) fun _ => .pure
    | rootfs => exact .pure
    | vm delta =>
      cases delta with
      | some p => exact confined_advanceChain peers
      | none => exact .pure
  | some seed =>
    have dropped (known : Option HaStore) {next : Unit → Prog Unit} (rest : ∀ known, Confined c known (next ()) (next ())) :
        Confined c known ((removeFile seed.path).bind next) ((removeFile seed.path).bind next) :=
      .bind_only (only_send rfl) fun _ => rest _
    cases work with
    | pve round => exact .bind_only (only_send rfl) fun _ => dropped _ fun _ => .pure
    | rootfs => exact dropped _ fun _ => .pure
    | vm delta =>
      cases delta with
      | some p => exact dropped _ fun _ => confined_advanceChain peers
      | none => exact dropped _ fun _ => .pure

theorem confined_runRound (entry : HaEntry) (pending : Option PendingDelta) :
    Confined c known (runRound c entry pending) (runRound c entry pending) := by
  refine .bind (confined_roundWork _ _) fun _ work => ?_
  cases work with
  | error e => exact .pure
  | ok work => exact .bind (confined_syncPeers _ _ _ _) fun _ result => .bind (confined_finishRound _ _ _ _) fun _ _ => .pure

theorem confined_syncContainerNow : Confined c known (syncContainerNow c) (syncContainerNow c) := by
  refine confined_load fun store store' same => ?_
  rw [← same]
  cases store.get c with
  | none => exact .pure
  | some entry =>
    dsimp only
    split
    · exact .pure
    · split
      · exact .pure
      · refine .bind_only (only_stagedDelta _) fun pending => ?_
        cases entry.pendingVmDelta with
        | none => exact confined_runRound _ _
        | some lost =>
          cases pending with
          | none => exact .bind (confined_breakChain _ _) fun _ _ => confined_runRound _ _
          | some p => exact confined_runRound _ _

end

/-- Rounds of different containers whose saves do not cross end, each in its own entry,
as they would have ended alone with the same answers. -/
theorem rounds_independent {ι : Type} [DecidableEq ι] (container : ι → String)
    (distinct : ∀ i j, i ≠ j → container i ≠ container j) (store final : HaStore) (schedule : List (ι × Exchanged))
    (rest : ι → Prog (Except String Unit)) (runs : ∀ i, Follows (syncContainerNow (container i)) (share i schedule) (rest i))
    (played : replay store (schedule.map (·.2)) = some final) (uncrossed : Uncrossed (fun _ => false) schedule) (i : ι) :
    ∃ rest' alone, Alone (container i) (syncContainerNow (container i)) store (share i schedule) rest' alone ∧
      final.get (container i) = alone.get (container i) ∧ ∀ value, rest i = .pure value → rest' = .pure value := by
  have together (j : ι) : Apart (container j) store false (syncContainerNow (container j)) (syncContainerNow (container j)) store :=
    ⟨⟨none, confined_syncContainerNow, nofun⟩, rfl⟩
  obtain ⟨trace', rest', alone, goes, alike, replayed, same, ended⟩ :=
    apart_throughout distinct together uncrossed played runs i
  exact ⟨rest', alone, ⟨trace', goes, alike, replayed⟩, same, ended⟩

def sharedPeer : HaPeer := ⟨"beta", "10.0.0.2", 8553⟩

def sharedEntry (container : String) : HaEntry :=
  { HaEntry.blank container .container none with role := .primary, replicas := [sharedPeer] }

def shippedAt (now : Nat) : HaSyncStatus := ⟨now, true, "1 file(s) shipped", 1, 4096⟩

def noted (container : String) (now : Nat) (store : HaStore) : HaStore :=
  store.modify container fun e => { e with lastSync := recordStatus e.lastSync sharedPeer.nodeId (shippedAt now) }

def sharedStore : HaStore := ⟨[sharedEntry "web", sharedEntry "db"]⟩

def roundReads (container : String) (now : Nat) (store : HaStore) : List Exchanged :=
  [⟨.load, store⟩, ⟨.peerIsLocal sharedPeer, false⟩, ⟨.load, store⟩,
    ⟨.shipRootfs container sharedPeer (settingsOf store container), shippedAt now⟩, ⟨.load, store⟩]

def roundWrites (container : String) (now : Nat) (store : HaStore) : List Exchanged :=
  [⟨.save (noted container now store), .ok ()⟩]

def named : Bool → String
  | true => "web"
  | false => "db"

def turns (i : Bool) (exchanges : List Exchanged) : List (Bool × Exchanged) := exchanges.map fun exchange => (i, exchange)

def inTurn : List (Bool × Exchanged) :=
  turns true (roundReads "web" 7 sharedStore ++ roundWrites "web" 7 sharedStore) ++
    turns false (roundReads "db" 9 (noted "web" 7 sharedStore) ++ roundWrites "db" 9 (noted "web" 7 sharedStore))

def crossed : List (Bool × Exchanged) :=
  turns true (roundReads "web" 7 sharedStore) ++
    turns false (roundReads "db" 9 sharedStore ++ roundWrites "db" 9 sharedStore) ++
    turns true (roundWrites "web" 7 sharedStore)

theorem rounds_independent_sample : ∃ rest' alone, Alone "db" (syncContainerNow "db") sharedStore
      (roundReads "db" 9 (noted "web" 7 sharedStore) ++ roundWrites "db" 9 (noted "web" 7 sharedStore)) rest' alone ∧
    (noted "db" 9 (noted "web" 7 sharedStore)).get "db" = alone.get "db" ∧
    ∀ value, (.pure (.ok ()) : Prog (Except String Unit)) = .pure value → rest' = .pure value := by
  have played : replay sharedStore (inTurn.map (·.2)) = some (noted "db" 9 (noted "web" 7 sharedStore)) := by rfl
  refine rounds_independent named (by decide) sharedStore _ inTurn (fun _ => .pure (.ok ())) (fun i => ?_) played ?_ false
  · cases i with
    | true => exact .cons (.cons (.cons (.cons (.cons (.cons .nil)))))
    | false => exact .cons (.cons (.cons (.cons (.cons (.cons .nil)))))
  · simp [inTurn, turns, roundReads, roundWrites, Uncrossed, wrote, informed, read]

/-- The first round writes back the file as it was before the second. -/
theorem crossed_rounds_lose : ∃ final, (∀ i, Follows (syncContainerNow (named i)) (share i crossed) (.pure (.ok ()))) ∧
    replay sharedStore (crossed.map (·.2)) = some final ∧
    ¬∃ rest' alone, Alone "db" (syncContainerNow "db") sharedStore (share false crossed) rest' alone ∧
      final.get "db" = alone.get "db" := by
  refine ⟨noted "web" 7 sharedStore, fun i => ?_, rfl, ?_⟩
  · cases i with
    | true => exact .cons (.cons (.cons (.cons (.cons (.cons .nil)))))
    | false => exact .cons (.cons (.cons (.cons (.cons (.cons .nil)))))
  · rintro ⟨rest', alone, ended, same⟩
    have own : Alone "db" (syncContainerNow "db") sharedStore (share false crossed) (.pure (.ok ()))
        (noted "db" 9 sharedStore) := by
      refine ⟨roundReads "db" 9 sharedStore ++ roundWrites "db" 9 sharedStore, ?_, ?_, rfl⟩
      · exact .cons (.cons (.cons (.cons (.cons (.cons .nil)))))
      · exact .cons (.load rfl) (.cons (.outside rfl) (.cons (.load rfl) (.cons (.outside rfl) (.cons (.load rfl)
          (.cons (.save rfl) .nil)))))
    rw [alone_unique ended own] at same
    exact absurd same (by decide)

end WolfHa
