import WolfStack.Effects.Program
import WolfStack.WolfHa.Host

/-! The requests that the primary's code makes of its surroundings. -/

namespace WolfHa

structure Url where
  secure : Bool
  host : String
  port : UInt16
deriving DecidableEq, Repr

def bracketHost (host : String) : String := if contains host ":" then s!"[{host}]" else host

def Url.text (url : Url) (path : String) : String :=
  let scheme := if url.secure then "https" else "http"
  s!"{scheme}://{bracketHost url.host}:{url.port}{path}"

inductive Answer (α : Type) where
  | success (body : α)
  | failure (status body : String)
  | unreachable (why : String)

def errorBody (text : String) : String := "\x7b\"error\":\"" ++ text ++ "\"\x7d"

structure PveRound where
  datasets : List String
  snapshot : String
deriving DecidableEq, Repr

structure DemoteForm where
  container : String
  newPrimary : HaPeer
  finalSync : Bool
deriving DecidableEq, Repr

inductive ImageFile where
  | disk
  | staged (path : String)
deriving DecidableEq, Repr

inductive Request : Type → Type where
  | load : Request HaStore
  | save (store : HaStore) : Request (Except String Unit)
  | nowUnix : Request Nat
  | newUuid : Request String
  | createStageDir : Request (Except String Unit)
  | pathExists (path : String) : Request Bool
  | fileLen (path : String) : Request Nat
  | removeFile (path : String) : Request Unit
  | openArchive (path : String) : Request (Except String Part)
  | peerIsLocal (peer : HaPeer) : Request Bool
  | lookupNodeWolfnetIp (address : String) : Request (Option String)
  | subjectIsRunning (kind : SubjectKind) (name : String) : Request Bool
  | subjectStop (kind : SubjectKind) (name : String) : Request (Except String Unit)
  | vmDiskAndConfig (name : String) : Request (Except String VmConfig)
  | vmEfivarsFile (name : String) : Request (Option String)
  | openEfivars (path : String) : Request (Except String Unit)
  | vmSetAutostart (name : String) (on : Bool) : Request (Except String Unit)
  | vmBeginTracking (name : String) : Request (Except String Unit)
  | vmEndTracking (name : String) : Request (Except String Unit)
  | pauseVm (name : String) : Request (Except String Unit)
  | stopVm (name : String) (force : Bool) : Request (Except String Unit)
  | takeIncremental (name path : String) : Request (Except String Unit)
  | takeFull (name path : String) : Request (Except String Unit)
  | copyDisk (name path : String) : Request (Except String Unit)
  | offlineRemoveBitmap (image : ImageFile) (name : String) : Request Unit
  | postVmDelta (url : Url) (form : VmDeltaForm) : Request (Answer Unit)
  | postVmSeed (url : Url) (form : VmSeedForm) : Request (Answer Unit)
  | postDemote (url : Url) (form : DemoteForm) : Request (Answer (Option String))
  | shipRootfs (container : String) (peer : HaPeer) (haMeta : Option HaMeta) : Request HaSyncStatus
  | pveSetOnboot (name : String) (on : Bool) : Request (Except String Unit)
  | pveTakeSnapshot (name : String) : Request (Except String PveRound)
  | pveShip (name : String) (peer : HaPeer) (round : PveRound) (entry : Option HaEntry) : Request HaSyncStatus
  | pveFinishRound (name : String) (round : PveRound) (allOk : Bool) : Request Unit
  | selfPeer : Request (Option HaPeer)

abbrev Prog := Effects.Program Request

end WolfHa
