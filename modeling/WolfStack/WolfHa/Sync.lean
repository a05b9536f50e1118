import WolfStack.WolfHa.Requests

/-! The primary's sync round, `sync_container_now` and what it calls. Loops over
peers and over the addresses of a peer are recursions on their lists; tracing and
alerts are left out. -/

namespace WolfHa
open Effects
open Effects.Program (send)

def loadStore : Prog HaStore := send .load

def nowUnix : Prog Nat := send .nowUnix

def removeFile (path : String) : Prog Unit := send (.removeFile path)

def stageDir : String := "/var/lib/wolfstack/wolfha"

def buildNodeUrls (address : String) (port : UInt16) : Prog (List Url) := do
  match ← send (.lookupNodeWolfnetIp address) with
  | some ip => return [⟨true, address, port⟩, ⟨false, ip, port + 1⟩, ⟨false, address, port⟩]
  | none => return [⟨true, address, port⟩, ⟨false, address, port⟩]

/-- What a failed attempt leaves in `last_err`. -/
def postError {α : Type} (url : Url) (path : String) : Answer α → String
  | .success _ => ""
  | .failure status body => s!"{url.text path}: HTTP {status} {String.ofList (body.toList.take 300)}"
  | .unreachable why => s!"{url.text path}: {why}"

/-- The firmware image that rides along, opened anew for every attempt. -/
def openEfivars (vars : Option String) : Prog (Except String Unit) := do
  match vars with
  | none => return .ok ()
  | some path =>
    match ← send (.openEfivars path) with
    | .ok () => return .ok ()
    | .error e => return .error s!"VM NVRAM vanished mid-send: {e}"

def humanBytes (bytes : Nat) : String :=
  if bytes < 1024 then s!"{bytes} B"
  else go bytes 1024 ["KiB", "MiB", "GiB"]
where
  /-- Tenths of the unit, halves rounded to even. -/
  tenths (bytes unit : Nat) : Nat :=
    let whole := bytes * 10 / unit
    let twice := bytes * 10 % unit * 2
    if twice < unit ∨ (twice = unit ∧ whole % 2 = 0) then whole else whole + 1
  go (bytes unit : Nat) : List String → String
    | [] => s!"{tenths bytes unit / 10}.{tenths bytes unit % 10} TiB"
    | name :: larger =>
      if bytes < unit * 1024 then s!"{tenths bytes unit / 10}.{tenths bytes unit % 10} {name}"
      else go bytes (unit * 1024) larger

def applyVmDeltaPath : String := "/api/wolfha/apply-vm-delta"

def postVmDelta (form : Part → VmDeltaForm) (deltaPath : String) : List Url → String → Prog (Except String Unit)
  | [], lastErr => return .error s!"VM delta upload failed: {lastErr}"
  | url :: urls, _ => do
    match ← send (.openArchive deltaPath) with
    | .error e => return .error e
    | .ok part =>
      let vars ← send (.vmEfivarsFile (form part).container)
      match ← openEfivars vars with
      | .error e => return .error e
      | .ok () =>
        match ← send (.postVmDelta url { form part with efivars := vars }) with
        | .success () => return .ok ()
        | answer => postVmDelta form deltaPath urls (postError url applyVmDeltaPath answer)

def settingsOf (store : HaStore) (container : String) : Option HaMeta :=
  match store.get container with
  | some e => if e.role = .primary then some (HaMeta.fromEntry e) else none
  | none => none

def syncVmReplicaInner (container : String) (peer : HaPeer) (deltaPath chainPrev chainNext : String) :
    Prog (Except String Unit) := do
  let store ← loadStore
  let vmConfig ← send (.vmDiskAndConfig container)
  let urls ← buildNodeUrls peer.address peer.port
  let form (part : Part) : VmDeltaForm :=
    { container, haMeta := settingsOf store container, vmConfig := vmConfig.toOption, chainPrev, chainNext,
      archive := part, efivars := none }
  postVmDelta form deltaPath urls ""

def syncVmReplica (container : String) (peer : HaPeer) (deltaPath chainPrev chainNext : String) :
    Prog HaSyncStatus := do
  let started ← nowUnix
  let bytes ← send (.fileLen deltaPath)
  match ← syncVmReplicaInner container peer deltaPath chainPrev chainNext with
  | .ok () => return ⟨started, true, s!"disk delta applied ({humanBytes bytes}, QEMU dirty bitmap)", 1, bytes⟩
  | .error e => return ⟨started, false, e, 0, 0⟩

def deltaPath (uuid : String) : String := s!"{stageDir}/vmdelta-{uuid}.qcow2"

def seedPath (uuid : String) : String := s!"{stageDir}/vmseed-{uuid}.qcow2"

def vmTakeDelta (name : String) : Prog (Except String (String × Nat)) := do
  match ← send (.vmDiskAndConfig name) with
  | .error e => return .error e
  | .ok _ =>
    match ← send .createStageDir with
    | .error e => return .error s!"staging dir: {e}"
    | .ok () =>
      let uuid ← send .newUuid
      match ← send (.takeIncremental name (deltaPath uuid)) with
      | .error e => return .error e
      | .ok () =>
        let size ← send (.fileLen (deltaPath uuid))
        return .ok (deltaPath uuid, size)

def takeSeedImage (name disk out : String) : Prog (Except String Unit) := do
  if ← send (.subjectIsRunning .vm name) then
    send (.takeFull name out)
  else
    match ← send (.copyDisk name out) with
    | .error e => return .error s!"copy {disk} to staging: {e}"
    | .ok () =>
      send (.offlineRemoveBitmap (.staged out) name)
      return .ok ()

def vmTakeSeed (name : String) : Prog (Except String (String × Nat × VmConfig)) := do
  match ← send (.vmDiskAndConfig name) with
  | .error e => return .error e
  | .ok config =>
    match ← send .createStageDir with
    | .error e => return .error s!"staging dir: {e}"
    | .ok () =>
      let uuid ← send .newUuid
      match ← takeSeedImage name (osDiskPathFor config) (seedPath uuid) with
      | .error e => return .error e
      | .ok () =>
        let size ← send (.fileLen (seedPath uuid))
        return .ok (seedPath uuid, size, config)

structure StagedVmSeed where
  path : String
  size : Nat
  config : VmConfig
  token : String

def receiveSeedPath : String := "/api/wolfha/receive-seed"

def postVmSeed (form : Part → VmSeedForm) (seedPath : String) (vars : Option String) :
    List Url → String → Prog (Except String Unit)
  | [], lastErr => return .error s!"VM seed upload failed: {lastErr}"
  | url :: urls, _ => do
    match ← send (.openArchive seedPath) with
    | .error e => return .error e
    | .ok part =>
      match ← openEfivars vars with
      | .error e => return .error e
      | .ok () =>
        match ← send (.postVmSeed url (form part)) with
        | .success () => return .ok ()
        | answer => postVmSeed form seedPath vars urls (postError url receiveSeedPath answer)

def vmSeedReplica (container : String) (peer : HaPeer) (seedPath : String) (vmConfig : VmConfig) (chain : String)
    (primary : HaPeer) (haMeta : HaMeta) : Prog (Except String Unit) := do
  let vars ← send (.vmEfivarsFile container)
  let urls ← buildNodeUrls peer.address peer.port
  let form (part : Part) : VmSeedForm :=
    { container, primary, haMeta, vmConfig, chain, archive := part, efivars := vars }
  postVmSeed form seedPath vars urls ""

def failed (message : String) : Prog HaSyncStatus := do
  return ⟨← nowUnix, false, message, 0, 0⟩

def seedToken (e : HaEntry) : Option String :=
  match e.pendingVmDelta with
  | some p => if p.token = "" then e.vmChain else some p.token
  | none => e.vmChain

/-- The round's full image, with the token it hands over. A broken chain is minted
a new token first. -/
def stageSeed (container : String) : Prog (Except String StagedVmSeed) := do
  match ← vmTakeSeed container with
  | .error e => return .error s!"re-seed needed but the full image failed: {e}"
  | .ok (path, size, config) =>
    let store ← loadStore
    match store.get container with
    | none =>
      removeFile path
      return .error s!"'{container}' vanished from the HA store mid-round"
    | some e =>
      match seedToken e with
      | some token => return .ok ⟨path, size, config, token⟩
      | none =>
        let minted ← send .newUuid
        match ← send (.save (store.modify container fun e => { e with vmChain := some minted })) with
        | .error err =>
          removeFile path
          return .error s!"re-seed: could not persist the new chain: {err}"
        | .ok () => return .ok ⟨path, size, config, minted⟩

def markApplied (container nodeId : String) : Prog Unit := do
  let store ← loadStore
  match (store.get container).bind HaEntry.pendingVmDelta with
  | some p =>
    if p.appliedBy.contains nodeId then return ()
    else
      let marked := { p with appliedBy := p.appliedBy ++ [nodeId] }
      let _ ← send (.save (store.modify container fun e => { e with pendingVmDelta := some marked }))
      return ()
  | none => return ()

def shipSeed (container : String) (peer : HaPeer) (seed : StagedVmSeed) : Prog HaSyncStatus := do
  let store ← loadStore
  match store.get container with
  | none => failed s!"'{container}' is no longer a primary here — re-seed abandoned"
  | some e =>
    if e.role ≠ .primary then failed s!"'{container}' is no longer a primary here — re-seed abandoned"
    else match e.selfIdentity with
      | none => failed "re-seed needs this node's own peer identity and the HA entry has none — disable and re-enable HA for this VM"
      | some me =>
        match ← vmSeedReplica container peer seed.path seed.config seed.token me (HaMeta.fromEntry e) with
        | .ok () =>
          markApplied container peer.nodeId
          return ⟨← nowUnix, true, s!"standby re-seeded with a full disk image ({humanBytes seed.size})", 1, seed.size⟩
        | .error e => failed s!"re-seed failed: {e}"

def vmReseedReplicaRound (container : String) (peer : HaPeer) (staged : Option StagedVmSeed) :
    Prog (HaSyncStatus × Option StagedVmSeed) := do
  match staged with
  | some seed => return (← shipSeed container peer seed, some seed)
  | none =>
    match ← stageSeed container with
    | .error message => return (← failed message, none)
    | .ok seed => return (← shipSeed container peer seed, some seed)

/-! ### The round -/

inductive RoundWork where
  | vm (delta : Option PendingDelta)
  | pve (round : PveRound)
  | rootfs

def behindOf (lost : PendingDelta) : List HaPeer → Prog (List String)
  | [] => return []
  | peer :: peers => do
    let here ← send (.peerIsLocal peer)
    let rest ← behindOf lost peers
    return if here = false ∧ peer.nodeId ∉ lost.appliedBy then peer.nodeId :: rest else rest

def lostDelta : String :=
  "staged disk delta was lost before this replica applied it — it is missing changes no later delta will contain. Every standby will be re-seeded with a full image on the coming rounds."

def markBehind : List String → List (String × HaSyncStatus) → Prog (List (String × HaSyncStatus))
  | [], statuses => return statuses
  | id :: ids, statuses => do
    let now ← nowUnix
    markBehind ids (recordStatus statuses id ⟨now, false, lostDelta, 0, 0⟩)

/-- The staged file of a recorded delta is gone, so no standby's state can be
trusted against the chain any more. -/
def breakChain (container : String) (peers : List HaPeer) (lost : PendingDelta) : Prog Unit := do
  let behind ← behindOf lost peers
  let store ← loadStore
  match store.get container with
  | none => return ()
  | some e =>
    let statuses ← markBehind behind e.lastSync
    let _ ← send (.save (store.modify container fun e =>
      { e with pendingVmDelta := none, vmChain := none, lastSync := statuses }))
    return ()

def stagedDelta (recorded : Option PendingDelta) : Prog (Option PendingDelta) := do
  match recorded with
  | none => return none
  | some p =>
    if ← send (.pathExists p.path) then return some p else return none

def takeAndRecord (container : String) : Prog (Except String PendingDelta) := do
  match ← vmTakeDelta container with
  | .error e => return .error s!"could not take a disk delta: {e}"
  | .ok (path, _) =>
    let takenAt ← nowUnix
    let token ← send .newUuid
    let p : PendingDelta := { path, takenAt, appliedBy := [], token }
    let store ← loadStore
    match store.get container with
    | none => return .ok p
    | some _ =>
      let _ ← send (.save (store.modify container fun e => { e with pendingVmDelta := some p }))
      return .ok p

def vmDelta (container : String) (pending : Option PendingDelta) : Prog (Except String (Option PendingDelta)) := do
  match pending with
  | some p => return .ok (some p)
  | none =>
    if ← send (.subjectIsRunning .vm container) then
      match ← takeAndRecord container with
      | .error e => return .error e
      | .ok p => return .ok (some p)
    else return .ok none

def roundWork (container : String) (kind : SubjectKind) (pending : Option PendingDelta) :
    Prog (Except String RoundWork) := do
  match kind with
  | .vm =>
    match ← vmDelta container pending with
    | .error e => return .error e
    | .ok delta => return .ok (.vm delta)
  | .pveContainer =>
    match ← send (.pveTakeSnapshot container) with
    | .error e => return .error s!"could not snapshot the container's volumes: {e}"
    | .ok round => return .ok (.pve round)
  | .container => return .ok .rootfs

def syncOneReplica (container : String) (peer : HaPeer) : Prog HaSyncStatus := do
  let store ← loadStore
  send (.shipRootfs container peer (settingsOf store container))

def pveShipRound (container : String) (peer : HaPeer) (round : PveRound) : Prog HaSyncStatus := do
  let store ← loadStore
  send (.pveShip container peer round ((store.get container).filter fun e => e.role = .primary))

/-- Ship the outstanding delta, or a full image where the delta proved not to fit. -/
def shipDelta (container : String) (p : PendingDelta) (peer : HaPeer) (staged : Option StagedVmSeed) :
    Prog (HaSyncStatus × Option StagedVmSeed) := do
  if p.appliedBy.contains peer.nodeId then
    return (⟨← nowUnix, true, "already up to date with the current delta", 0, 0⟩, staged)
  else
    let store ← loadStore
    let chainPrev := ((store.get container).bind HaEntry.vmChain).getD ""
    let st ← syncVmReplica container peer p.path chainPrev p.token
    let (st, staged) ←
      if st.ok = false ∧ needsSeed st.message = true then vmReseedReplicaRound container peer staged
      else pure (st, staged)
    if st.ok then markApplied container peer.nodeId
    return (st, staged)

def wantsSeed (e : HaEntry) (nodeId : String) : Bool :=
  e.vmChain.isNone || e.lastSync.any fun known => known.1 = nodeId && !known.2.ok && needsSeed known.2.message

def visitStopped (container : String) (peer : HaPeer) (staged : Option StagedVmSeed) :
    Prog (HaSyncStatus × Option StagedVmSeed) := do
  let store ← loadStore
  if ((store.get container).map fun e => wantsSeed e peer.nodeId).getD false then
    vmReseedReplicaRound container peer staged
  else
    return (⟨← nowUnix, true, "VM is stopped — the standby holds its last delivered state; deltas resume when it starts", 0, 0⟩,
      staged)

def syncPeer (container : String) (work : RoundWork) (peer : HaPeer) (staged : Option StagedVmSeed) :
    Prog (HaSyncStatus × Option StagedVmSeed) := do
  match work with
  | .vm (some p) => shipDelta container p peer staged
  | .vm none => visitStopped container peer staged
  | .pve round => return (← pveShipRound container peer round, staged)
  | .rootfs => return (← syncOneReplica container peer, staged)

def saveStatus (container nodeId : String) (status : HaSyncStatus) : Prog Unit := do
  let store ← loadStore
  match store.get container with
  | none => return ()
  | some _ =>
    let _ ← send (.save (store.modify container fun e => { e with lastSync := recordStatus e.lastSync nodeId status }))
    return ()

def syncPeers (container : String) (work : RoundWork) :
    List HaPeer → Option StagedVmSeed → Bool → Prog (Option StagedVmSeed × Bool)
  | [], staged, allOk => return (staged, allOk)
  | peer :: peers, staged, allOk => do
    if ← send (.peerIsLocal peer) then syncPeers container work peers staged allOk
    else
      let (status, staged) ← syncPeer container work peer staged
      saveStatus container peer.nodeId status
      syncPeers container work peers staged (allOk && status.ok)

def allApplied (p : PendingDelta) : List HaPeer → Prog Bool
  | [] => return true
  | peer :: peers => do
    let here ← send (.peerIsLocal peer)
    if here = false ∧ peer.nodeId ∉ p.appliedBy then return false else allApplied p peers

/-- Drop the delta and advance the chain once every replica has confirmed it. -/
def advanceChain (container : String) (peers : List HaPeer) : Prog Unit := do
  let store ← loadStore
  match (store.get container).bind HaEntry.pendingVmDelta with
  | none => return ()
  | some p =>
    if ← allApplied p peers then
      removeFile p.path
      let _ ← send (.save (store.modify container fun e =>
        { e with pendingVmDelta := none, vmChain := if p.token = "" then e.vmChain else some p.token }))
      return ()
    else return ()

def finishRound (container : String) (work : RoundWork) (peers : List HaPeer) (staged : Option StagedVmSeed)
    (allOk : Bool) : Prog Unit := do
  match work with
  | .pve round => send (.pveFinishRound container round allOk)
  | _ => pure ()
  match staged with
  | some seed => removeFile seed.path
  | none => pure ()
  match work with
  | .vm (some _) => advanceChain container peers
  | _ => pure ()

/-- The round proper, once it is settled which recorded delta there is to ship. -/
def runRound (container : String) (entry : HaEntry) (pending : Option PendingDelta) : Prog (Except String Unit) := do
  match ← roundWork container entry.kind pending with
  | .error e => return .error e
  | .ok work =>
    let (staged, allOk) ← syncPeers container work entry.replicas none true
    finishRound container work entry.replicas staged allOk
    return .ok ()

def syncContainerNow (container : String) : Prog (Except String Unit) := do
  let store ← loadStore
  match store.get container with
  | none => return .error s!"'{container}' is not WolfHA-managed here"
  | some entry =>
    if entry.role ≠ .primary then
      return .error s!"'{container}' is a replica on this node — syncs run on the primary"
    else if entry.stale then
      return .error s!"'{container}' is stale here (a replica was promoted) — it receives syncs now, it doesn't send them"
    else
      let pending ← stagedDelta entry.pendingVmDelta
      match entry.pendingVmDelta, pending with
      | some lost, none => breakChain container entry.replicas lost
      | _, _ => pure ()
      runRound container entry pending

end WolfHa
