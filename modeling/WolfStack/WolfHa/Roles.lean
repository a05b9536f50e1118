import WolfStack.WolfHa.Sync

/-! A copy changes its role: `demote_local`, the handoff that `wolfha_demote` makes of
the old primary, and how `wolfha_promote` asks for it before it goes on to promote.
Marker and container config files, alerts and task progress are left out. -/

namespace WolfHa
open Effects
open Effects.Program (send)

def promotedEntry (me : Option HaPeer) (replicas : List HaPeer) (e : HaEntry) : HaEntry :=
  { e with
    primary := none
    role := .primary
    stale := false
    lastSync := []
    replicas
    selfIdentity := me
    intervalMinutes := if e.intervalMinutes = 0 then 5 else e.intervalMinutes
    autostartManaged := true }

/-- A VM's disk may hold writes that no delta captured: its token goes. -/
def demotedEntry (newPrimary : HaPeer) (e : HaEntry) : HaEntry :=
  { e with
    role := .replica
    stale := true
    primary := some newPrimary
    replicas := []
    lastSync := []
    selfIdentity := none
    vmChain := if e.kind = .vm then none else e.vmChain }

def demotedStore (store : HaStore) (container : String) (newPrimary : HaPeer) : HaStore :=
  match store.get container with
  | some _ => store.modify container (demotedEntry newPrimary)
  | none => store.push { HaEntry.blank container SubjectKind.default (some newPrimary) with stale := true }

def stopForDemotion (kind : SubjectKind) (container : String) : Prog (Except String Unit) := do
  if ← send (.subjectIsRunning kind container) then
    match ← send (.subjectStop kind container) with
    | .error e => return .error s!"could not stop '{container}' for demotion: {e}"
    | .ok () => return .ok ()
  else return .ok ()

def storedKind (container : String) : Prog SubjectKind := do
  let store ← loadStore
  return ((store.get container).map (·.kind)).getD SubjectKind.default

def clearOnboot (kind : SubjectKind) (container : String) : Prog Unit := do
  if kind = .pveContainer then
    let _ ← send (.pveSetOnboot container false)

def demoteLocal (container : String) (newPrimary : HaPeer) : Prog (Except String Unit) := do
  let kind ← storedKind container
  match ← stopForDemotion kind container with
  | .error e => return .error e
  | .ok () =>
    clearOnboot kind container
    let store ← loadStore
    send (.save (demotedStore store container newPrimary))

/-- The final delta goes to the promoting node, which must have it, and then to the
other standbys. -/
def shipToOthers (container deltaPath prev next : String) (newPrimary : HaPeer) : List HaPeer → Prog Unit
  | [] => return ()
  | peer :: peers => do
    if peer.nodeId = newPrimary.nodeId ∨ peer.address = newPrimary.address then
      shipToOthers container deltaPath prev next newPrimary peers
    else if ← send (.peerIsLocal peer) then shipToOthers container deltaPath prev next newPrimary peers
    else
      let _ ← syncVmReplica container peer deltaPath prev next
      shipToOthers container deltaPath prev next newPrimary peers

/-- The token of a final delta that arrived, and what the operator is told otherwise. -/
def finalDelta (container : String) (newPrimary : HaPeer) : Prog (Option String × String) := do
  match ← vmTakeDelta container with
  | .error e => return (none, s!" (final delta could not be taken: {e} — the promoted copy has the last periodic sync)")
  | .ok (deltaPath, _) =>
    let store ← loadStore
    let prev := ((store.get container).bind HaEntry.vmChain).getD ""
    let next ← send .newUuid
    let st ← syncVmReplica container newPrimary deltaPath prev next
    if st.ok then
      shipToOthers container deltaPath prev next newPrimary (((store.get container).map HaEntry.replicas).getD [])
      removeFile deltaPath
      return (some next, "")
    else
      removeFile deltaPath
      return (none, s!" (final delta failed: {st.message} — the promoted copy has the last periodic sync)")

def awaitExit (container : String) : Nat → Prog Bool
  | 0 => return false
  | tries + 1 => do
    if ← send (.subjectIsRunning .vm container) then awaitExit container tries else return true

def terminateVm (container : String) : Prog (Except String Unit) := do
  match ← send (.stopVm container false) with
  | .error e => return .error e
  | .ok () =>
    if ← awaitExit container 240 then return .ok ()
    else match ← send (.stopVm container true) with
      | .error e => return .error e
      | .ok () =>
        if ← awaitExit container 20 then return .ok () else return .error "the QEMU process would not exit"

/-- Freeze the guest, ship a final delta of its disk, and end the process. -/
def handOffVm (container : String) (newPrimary : HaPeer) (finalSync : Bool) :
    Prog (Except String (Option String × String)) := do
  let paused ← send (.pauseVm container)
  let frozen ← match paused with
    | .error e => pure (none, s!" (could not freeze the VM for a final delta: {e})")
    | .ok () => if finalSync then finalDelta container newPrimary else pure (none, "")
  match ← terminateVm container with
  | .error e => return .error s!"could not stop VM '{container}' for handoff: {e}"
  | .ok () => return .ok frozen

/-- The final delta was taken off a frozen disk and applied: this copy is its content. -/
def restoreToken (container token : String) : Prog Unit := do
  let store ← loadStore
  match store.get container with
  | some _ =>
    let _ ← send (.save (store.modify container fun e => { e with vmChain := some token }))
    return ()
  | none => return ()

def demoted (container note : String) : String := s!"'{container}' stopped and demoted to replica{note}"

def demoteVm (container : String) (newPrimary : HaPeer) (finalSync : Bool) : Prog (Except String String) := do
  let handoff ←
    if ← send (.subjectIsRunning .vm container) then handOffVm container newPrimary finalSync
    else pure (.ok (none, ""))
  match handoff with
  | .error e => return .error e
  | .ok (token, note) =>
    match ← demoteLocal container newPrimary with
    | .error e => return .error e
    | .ok () =>
      match token with
      | some next => restoreToken container next
      | none => pure ()
      return .ok (demoted container note)

/-- The final stream goes to the promoting node and then to the other standbys. -/
def pveShipOthers (vmid : String) (newPrimary : HaPeer) (round : PveRound) : List HaPeer → Bool → Prog Bool
  | [], allOk => return allOk
  | peer :: peers, allOk => do
    if peer.nodeId = newPrimary.nodeId ∨ peer.address = newPrimary.address then
      pveShipOthers vmid newPrimary round peers allOk
    else if ← send (.peerIsLocal peer) then pveShipOthers vmid newPrimary round peers allOk
    else
      let status ← pveShipRound vmid peer round
      pveShipOthers vmid newPrimary round peers (allOk && status.ok)

def pveFinalSync (vmid : String) (newPrimary : HaPeer) : Prog HaSyncStatus := do
  match ← send (.pveTakeSnapshot vmid) with
  | .error e => return ⟨← nowUnix, false, s!"final snapshot failed: {e}", 0, 0⟩
  | .ok round =>
    let status ← pveShipRound vmid newPrimary round
    let store ← loadStore
    let allOk ← pveShipOthers vmid newPrimary round (((store.get vmid).map HaEntry.replicas).getD []) status.ok
    send (.pveFinishRound vmid round allOk)
    return status

def stopContainer (container : String) : Prog (Except String Unit) := do
  if ← send (.subjectIsRunning .container container) then
    match ← send (.subjectStop .container container) with
    | .error e => return .error s!"could not stop '{container}' for handoff: {e}"
    | .ok () => return .ok ()
  else return .ok ()

def finalNote (kind : SubjectKind) (container : String) (newPrimary : HaPeer) : Prog String := do
  let status ← match kind with
    | .pveContainer => pveFinalSync container newPrimary
    | _ => syncOneReplica container newPrimary
  return if status.ok then ""
    else s!" (final delta failed: {status.message} — the promoted copy has the last periodic sync)"

def demoteContainer (kind : SubjectKind) (container : String) (newPrimary : HaPeer) (finalSync : Bool) :
    Prog (Except String String) := do
  match ← stopContainer container with
  | .error e => return .error e
  | .ok () =>
    let note ← if finalSync then finalNote kind container newPrimary else pure ""
    match ← demoteLocal container newPrimary with
    | .error e => return .error e
    | .ok () => return .ok (demoted container note)

/-- `wolfha_demote` for a name that passed its check. -/
def wolfhaDemote (form : DemoteForm) : Prog (Except String String) := do
  let kind ← storedKind form.container
  match kind with
  | .vm => demoteVm form.container form.newPrimary form.finalSync
  | _ => demoteContainer kind form.container form.newPrimary form.finalSync

/-- Ask the current primary on one address after another, until it confirms. -/
def askToDemote (form : DemoteForm) : List Url → Prog (Option String)
  | [] => return none
  | url :: urls => do
    match ← send (.postDemote url form) with
    | .success message => return some (message.getD "clean handoff from the old primary")
    | _ => askToDemote form urls

def handoffMessage (form : DemoteForm) : Option HaPeer → Prog String
  | some primary => do
    let urls ← buildNodeUrls primary.address primary.port
    return (← askToDemote form urls).getD "current primary unreachable — taking over with the last synced state"
  | none => return "current primary unreachable — taking over with the last synced state"

def noIdentity : String := "this node's own cluster identity is not established yet"

/-- What comes before `promote_local`: who this node is, and the handoff, if the current
primary answers. -/
def demandHandoff (container : String) : Prog (Except String (HaPeer × String)) := do
  let store ← loadStore
  match store.get container with
  | none => return .error s!"'{container}' is not WolfHA-managed on this node"
  | some entry =>
    if entry.role = .primary ∧ entry.stale = false then
      return .error s!"'{container}' is already the active primary on this node"
    else match ← send .selfPeer with
      | none => return .error noIdentity
      | some me => return .ok (me, ← handoffMessage ⟨container, me, true⟩ entry.primary)

end WolfHa
