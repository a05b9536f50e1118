import WolfStack.Rootfs.BlockDeltas
import WolfStack.Posix.Paths
import WolfStack.Effects.Steps

/-! Which files of a host a delta touches. The paths in it are checked as texts, while the host
follows the links that stand in the rootfs when the paths are used. -/

namespace Rootfs
open Replication Wire Posix Effects

/-- A host's files, and the places of those that have been removed, read or replaced. -/
structure Host where
  tree : Posix.Tree Bytes
  touched : List Location

namespace Host

def remove (host : Host) (place : Location) : Host where
  tree := Function.update host.tree place none
  touched := host.touched ++ [place]

/-- Links that are met below are removed, not followed. -/
def removeAll (host : Host) (place : Location) : Host where
  tree spot := if place <+: spot then none else host.tree spot
  touched := host.touched ++ [place]

def read (host : Host) (place : Location) : Host := { host with touched := host.touched ++ [place] }

/-- `remove_file`. -/
def unlink (host : Host) (path : String) : Host :=
  match host.tree.entry path.toList with
  | none => host
  | some place =>
    match host.tree place with
    | none | some .dir => host
    | some _ => host.remove place

/-- `File::create`, which empties a file that is there. A device is opened as it is. -/
def create (host : Host) (path : String) : Option (Host × Location) :=
  match host.tree.leadsTo path.toList with
  | none => none
  | some place =>
    match host.tree place with
    | some .dir => none
    | some (.file _) | none =>
      some ({ tree := Function.update host.tree place (some (.file [])), touched := host.touched ++ [place] }, place)
    | some .other | some (.link _) => some (host.read place, place)

def fill (host : Host) (place : Location) (content : Bytes) : Host :=
  match host.tree place with
  | some (.file _) => { host with tree := Function.update host.tree place (some (.file content)) }
  | _ => host

/-- `rename`, which moves a link as it is. -/
def rename (host : Host) (source target : String) : Option Host :=
  match host.tree.entry source.toList, host.tree.entry target.toList with
  | some a, some b =>
    match host.tree a with
    | none => none
    | some node =>
      if host.tree b = some .dir then none
      else some ⟨Function.update (Function.update host.tree a none) b (some node), host.touched ++ [a, b]⟩
  | _, _ => none

def inRootfs (rootfs path : String) : String := rootfs ++ "/" ++ path

/-- One turn of the deletion loop. A removal takes away all that is there, or nothing. -/
def deleteTurn (rootfs : String) (removable : Location → Bool) (state : Host × Nat) (d : String) : Host × Nat :=
  match state.1.tree.entry (inRootfs rootfs d).toList with
  | none => state
  | some place =>
    match state.1.tree place with
    | none => state
    | some .dir => if removable place then (state.1.removeAll place, state.2 + 1) else state
    | some _ => if removable place then (state.1.remove place, state.2 + 1) else state

/-- Where a container's files are, below the directory of all containers. -/
def rootfsOf (base container : String) : String := s!"{base}/{container}/rootfs"

def applyDelta (base container : String) (running : Bool)
    (untar : Posix.Tree Bytes → Posix.Tree Bytes × Except String Unit) (removable : Location → Bool) (host : Host)
    (deletions : List String) : Host × Except String Nat :=
  let rootfs := rootfsOf base container
  if (host.tree.leadsTo rootfs.toList).bind host.tree ≠ some .dir then
    (host, .error s!"replica rootfs missing: {rootfs}")
  else if running then
    (host, .error s!"'{container}' is running here — refusing to overwrite a live rootfs")
  else
    match deletions.find? fun d => !isSafeRelPath d with
    | some d => (host, .error s!"unsafe deletion path rejected: {d.quote}")
    | none =>
      match untar host.tree with
      | (tree, .error e) => ({ host with tree }, .error e)
      | (tree, .ok ()) =>
        let done := (deletions.mergeSort deletionOrder).foldl (deleteTurn rootfs removable) ({ host with tree }, 0)
        (done.1, .ok done.2)

def applyOver (target : String) (ops : List DeltaOp) : Except String Bytes :=
  ops.foldlM (fun out op => match op with
    | .literal bytes => .ok (out ++ bytes)
    | .copy index count =>
      (List.range count.toNat).foldlM (fun out k => copyBlock target out blockSize out index k) out) []

/-- `install_reconstructed_file` for a path that a regular file was found at. What is left of a
rebuilding that fails is `torn`. -/
def installReconstructedFile (torn : Bytes) (host : Host) (rel target : String) (ops : List DeltaOp) : Host × Option Failed :=
  match host.tree.leadsTo target.toList with
  | none => (host, some (.missing rel))
  | some place =>
    match host.tree place with
    | some (.file base) =>
      match (host.read place).create (tempPath target) with
      | none => ((host.read place).unlink (tempPath target), some (.create rel))
      | some (opened, temp) =>
        match if temp = place then applyOver target ops else Replication.applyDelta target base blockSize ops with
        | .error text => ((opened.fill temp torn).unlink (tempPath target), some (.apply rel text))
        | .ok out =>
          match (opened.fill temp out).rename (tempPath target) target with
          | some installed => (installed, none)
          | none => ((opened.fill temp out).unlink (tempPath target), some (.apply rel "install"))
    | _ => (host, some (.missing rel))

/-- One turn of the loop over a bundle, which ends at the first failure. -/
def blockTurn (rootfs : String) (torn : String → Bytes) (state : Host × Option Failed) (item : FileDelta) :
    Host × Option Failed :=
  if state.2.isSome then state
  else if !isSafeRelPath item.path then (state.1, some (.unsafePath item.path))
  else state.1.installReconstructedFile (torn item.path) item.path (inRootfs rootfs item.path) item.ops

def applyBlockDeltas (rootfs : String) (torn : String → Bytes) (host : Host) (blob : Bytes) : Host × Option Failed :=
  match unpackFileDeltas blob with
  | .error fault => (host, some (.bundle fault))
  | .ok items => items.foldl (blockTurn rootfs torn) (host, none)

/-- Everything that was removed, read or replaced lies below the rootfs. -/
def Confined (root : Location) (host : Host) : Prop := ∀ place ∈ host.touched, Below root place

/-- The directory that a path's front leads to is in the rootfs, or nothing of its last name
that can be removed is in that directory. -/
def DeletionStays (root : Location) (removable : Location → Bool) (tree : Posix.Tree Bytes) (path : String) : Prop :=
  ∀ dir name, tree.directory path.toList = some dir → (components path.toList).getLast? = some name →
    tree (dir ++ [name]) ≠ none → removable (dir ++ [name]) = true → root <+: dir

/-- If a path leads to a regular file, then that file is in the rootfs; so is the directory
that the path's front leads to, unless a directory has the temporary name there; and so is what
the temporary name leads to, unless that is a directory. -/
def BlockStays (root : Location) (tree : Posix.Tree Bytes) (target : String) : Prop :=
  ∀ place content, tree.leadsTo target.toList = some place → tree place = some (.file content) →
    Below root place ∧
      (∀ dir name, tree.directory target.toList = some dir →
        (components (tempPath target).toList).getLast? = some name → tree (dir ++ [name]) ≠ some .dir → root <+: dir) ∧
      ∀ temp, tree.leadsTo (tempPath target).toList = some temp → tree temp ≠ some .dir → Below root temp

variable {root place : Location} {host : Host} {removable : Location → Bool} {rootfs : String}

theorem confined_remove : Confined root (host.remove place) ↔ Confined root host ∧ Below root place := by
  simp [Confined, remove, or_imp, forall_and]

theorem confined_removeAll : Confined root (host.removeAll place) ↔ Confined root host ∧ Below root place := by
  simp [Confined, removeAll, or_imp, forall_and]

theorem confined_read : Confined root (host.read place) ↔ Confined root host ∧ Below root place := by
  simp [Confined, read, or_imp, forall_and]

theorem safe_named {d : String} (safe : isSafeRelPath d = true) (rootfs : String) :
    ∃ front name, components (inRootfs rootfs d).toList = front ++ [name] ∧ Proper name := by
  have joined : (inRootfs rootfs d).toList = rootfs.toList ++ '/' :: d.toList := by
    simp [inRootfs]
  have parts : d.toList.splitOn '/' ≠ [] := List.splitOn_ne_nil _ _
  simp only [isSafeRelPath, decide_eq_true_eq] at safe
  obtain ⟨dots, filled, dot⟩ := safe.2.2.2 _ (List.getLast_mem parts)
  refine ⟨components rootfs.toList ++ (d.toList.splitOn '/').dropLast, _, ?_, filled, dot, dots⟩
  rw [joined, Tree.components_below, List.append_assoc, List.dropLast_concat_getLast]
  rfl

theorem deletionStays_iff {tree : Posix.Tree Bytes} {path : String} {front : List Name} {name : Name} {dir : Location}
    (named : components path.toList = front ++ [name]) (inside : tree.directory path.toList = some dir) :
    DeletionStays root removable tree path ↔ (tree (dir ++ [name]) ≠ none → removable (dir ++ [name]) = true → root <+: dir) := by
  have last : (components path.toList).getLast? = some name := by simp [named]
  constructor
  · intro stays
    exact stays dir name inside last
  · intro stays other other' found found'
    obtain rfl := Option.some.inj (inside.symm.trans found)
    obtain rfl := Option.some.inj (last.symm.trans found')
    exact stays

theorem deleteTurn_confined {state : Host × Nat} {d : String} (safe : isSafeRelPath d = true) :
    Confined root (deleteTurn rootfs removable state d).1 ↔
      Confined root state.1 ∧ DeletionStays root removable state.1.tree (inRootfs rootfs d) := by
  obtain ⟨front, name, named, proper⟩ := safe_named safe rootfs
  have entry := Tree.entry_eq state.1.tree named proper
  unfold deleteTurn
  cases inside : state.1.tree.directory (inRootfs rootfs d).toList with
  | none =>
    rw [entry, inside]
    have stays : DeletionStays root removable state.1.tree (inRootfs rootfs d) :=
      fun dir name found => absurd (inside.symm.trans found) nofun
    simp [stays]
  | some dir =>
    rw [entry, inside, deletionStays_iff named inside, Option.map_some]
    dsimp only
    cases held : state.1.tree (dir ++ [name]) with
    | none => simp
    | some node =>
      by_cases gone : removable (dir ++ [name]) = true
      · cases node <;> simp [gone, confined_remove, confined_removeAll, below_entry]
      · cases node <;> simp [gone]

/-! ### Rebuilding a file -/

variable {path target : String} {front : List Name} {name : Name} {dir : Location}

theorem unlink_confined (named : components path.toList = front ++ [name]) (proper : Proper name)
    (inside : host.tree.directory path.toList = some dir) :
    Confined root (host.unlink path) ↔ Confined root host ∧
      (host.tree (dir ++ [name]) ≠ none → host.tree (dir ++ [name]) ≠ some .dir → root <+: dir) := by
  unfold unlink
  rw [Tree.entry_eq host.tree named proper, inside, Option.map_some]
  dsimp only
  cases held : host.tree (dir ++ [name]) with
  | none => simp
  | some node => cases node <;> simp [confined_remove, below_entry]

theorem fill_confined (content : Bytes) : Confined root (host.fill place content) ↔ Confined root host := by
  unfold fill
  split <;> rfl

theorem fill_alike (host : Host) (place : Location) (content : Bytes) : Tree.Alike host.tree (host.fill place content).tree := by
  unfold fill
  split
  · rename_i held
    exact Tree.alike_update (by rw [held]; trivial) trivial
  · exact fun _ => .inl rfl

theorem create_cases (named : components path.toList = front ++ [name]) (proper : Proper name)
    (inside : host.tree.directory path.toList = some dir) :
    host.create path = none ∧ host.tree (dir ++ [name]) ≠ none ∧
        (∀ temp, host.tree.leadsTo path.toList = some temp → host.tree temp = some .dir) ∨
      ∃ opened temp, host.create path = some (opened, temp) ∧ host.tree.leadsTo path.toList = some temp ∧
        host.tree temp ≠ some .dir ∧ (Confined root opened ↔ Confined root host ∧ Below root temp) ∧
        Tree.Alike host.tree opened.tree ∧ opened.tree temp ≠ none := by
  have reached : host.tree (dir ++ [name]) = none → host.tree.leadsTo path.toList = some (dir ++ [name]) := by
    intro missing
    exact Tree.leadsTo_eq named proper inside fun target link => absurd (missing.symm.trans link) nofun
  unfold create
  cases leads : host.tree.leadsTo path.toList with
  | none => exact .inl ⟨rfl, fun missing => absurd (leads.symm.trans (reached missing)) nofun, nofun⟩
  | some temp =>
    have emptied : ∀ node, Tree.Plain (host.tree temp) →
        (Confined root { tree := Function.update host.tree temp (some (.file node)), touched := host.touched ++ [temp] } ↔
          Confined root host ∧ Below root temp) ∧
        Tree.Alike host.tree (Function.update host.tree temp (some (.file node))) ∧
        Function.update host.tree temp (some (.file node)) temp ≠ none := by
      intro node plain
      refine ⟨confined_read, Tree.alike_update plain trivial, ?_⟩
      rw [Function.update_self]
      exact nofun
    dsimp only
    cases held : host.tree temp with
    | none => exact .inr ⟨_, temp, rfl, rfl, by rw [held]; exact nofun, emptied [] (by rw [held]; trivial)⟩
    | some node =>
      cases node with
      | dir =>
        refine .inl ⟨rfl, fun missing => ?_, fun other same => ?_⟩
        · obtain rfl := Option.some.inj (leads.symm.trans (reached missing))
          exact absurd (missing.symm.trans held) nofun
        · obtain rfl := Option.some.inj same
          exact held
      | file content => exact .inr ⟨_, temp, rfl, rfl, by rw [held]; exact nofun, emptied [] (by rw [held]; trivial)⟩
      | other =>
        exact .inr ⟨_, temp, rfl, rfl, by rw [held]; exact nofun, confined_read, fun _ => .inl rfl, fun none_ =>
          absurd (held.symm.trans none_) nofun⟩
      | link target =>
        exact .inr ⟨_, temp, rfl, rfl, by rw [held]; exact nofun, confined_read, fun _ => .inl rfl, fun none_ =>
          absurd (held.symm.trans none_) nofun⟩

theorem rename_cases {source : String} {front' : List Name} {name' : Name} (named : components source.toList = front ++ [name])
    (proper : Proper name) (inside : host.tree.directory source.toList = some dir)
    (named' : components target.toList = front' ++ [name']) (proper' : Proper name')
    (inside' : host.tree.directory target.toList = some dir) :
    host.rename source target = none ∨
      ∃ after, host.rename source target = some after ∧ (Confined root after ↔ Confined root host ∧ root <+: dir) := by
  unfold rename
  rw [Tree.entry_eq host.tree named proper, Tree.entry_eq host.tree named' proper', inside, inside']
  simp only [Option.map_some]
  split
  · exact .inl rfl
  · split
    · exact .inl rfl
    · refine .inr ⟨_, rfl, ?_⟩
      simp [Confined, or_imp, forall_and, below_entry]

theorem temp_named (named : components target.toList = front ++ [name]) (proper : Proper name) :
    ∃ temp, components (tempPath target).toList = front ++ [temp] ∧ Proper temp := by
  have flat : '/' ∉ ".wolfha-delta".toList := by decide
  obtain ⟨front', name', whole, longer⟩ := Tree.components_suffix flat target.toList
  obtain ⟨rfl, same⟩ := List.append_inj' (whole.symm.trans named) rfl
  obtain rfl := List.singleton_inj.mp same
  refine ⟨name' ++ ".wolfha-delta".toList, ?_, ?_, ?_, ?_⟩
  · rw [← longer, tempPath, String.toList_append]
  all_goals
    intro short
    have size := congrArg List.length short
    simp at size

theorem fill_there {content : Bytes} (there : host.tree place ≠ none) : (host.fill place content).tree place ≠ none := by
  unfold fill
  split
  · dsimp only
    rw [Function.update_self]
    exact nofun
  · exact there

theorem filled_entry {opened : Host} {temp : Location} (content : Bytes) (named : components path.toList = front ++ [name])
    (proper : Proper name) (inside : host.tree.directory path.toList = some dir)
    (leads : host.tree.leadsTo path.toList = some temp) (open_ : host.tree temp ≠ some .dir)
    (alike : Tree.Alike host.tree opened.tree) (there : opened.tree temp ≠ none) :
    (opened.fill temp content).tree (dir ++ [name]) ≠ none ∧ (opened.fill temp content).tree (dir ++ [name]) ≠ some .dir := by
  have kept := alike.trans (opened.fill_alike temp content) (dir ++ [name])
  by_cases linked : ∃ target, host.tree (dir ++ [name]) = some (.link target)
  · obtain ⟨target, link⟩ := linked
    rw [link] at kept
    rcases kept with same | ⟨plain, _⟩
    · rw [← same]
      exact ⟨nofun, nofun⟩
    · exact plain.elim
  · have found := Tree.leadsTo_eq named proper inside fun target link => linked ⟨target, link⟩
    obtain rfl := Option.some.inj (leads.symm.trans found)
    refine ⟨fill_there there, fun directory => ?_⟩
    rcases kept with same | ⟨_, plain⟩
    · exact open_ (same.trans directory)
    · rw [directory] at plain
      exact plain.elim

theorem blockStays_iff {content : Bytes} {temp : Name} (leads : host.tree.leadsTo target.toList = some place)
    (held : host.tree place = some (.file content)) (inside : host.tree.directory target.toList = some dir)
    (named : components (tempPath target).toList = front ++ [temp]) :
    BlockStays root host.tree target ↔ Below root place ∧ (host.tree (dir ++ [temp]) ≠ some .dir → root <+: dir) ∧
      ∀ beside, host.tree.leadsTo (tempPath target).toList = some beside → host.tree beside ≠ some .dir → Below root beside := by
  have last : (components (tempPath target).toList).getLast? = some temp := by simp [named]
  constructor
  · intro stays
    obtain ⟨below, within, apart_⟩ := stays place content leads held
    exact ⟨below, within dir temp inside last, apart_⟩
  · intro ⟨below, within, apart_⟩ other content' found _
    obtain rfl := Option.some.inj (leads.symm.trans found)
    refine ⟨below, fun other other' found found' => ?_, apart_⟩
    obtain rfl := Option.some.inj (inside.symm.trans found)
    obtain rfl := Option.some.inj (last.symm.trans found')
    exact within

theorem install_confined {torn : Bytes} {rel : String} {ops : List DeltaOp}
    (named : components target.toList = front ++ [name]) (proper : Proper name) :
    Confined root (host.installReconstructedFile torn rel target ops).1 ↔
      Confined root host ∧ BlockStays root host.tree target := by
  unfold installReconstructedFile
  cases leads : host.tree.leadsTo target.toList with
  | none =>
    have stays : BlockStays root host.tree target := fun place content found => absurd (leads.symm.trans found) nofun
    simp [stays]
  | some place =>
    dsimp only
    split
    · rename_i base held
      obtain ⟨temp, tempNamed, tempProper⟩ := temp_named named proper
      obtain ⟨dir, inside⟩ := Tree.directory_some named proper leads
      have beside : (host.read place).tree.directory (tempPath target).toList = some dir := by
        show host.tree.directory _ = some dir
        unfold Tree.directory at inside ⊢
        rw [tempNamed, List.dropLast_concat]
        rw [named, List.dropLast_concat] at inside
        exact inside
      rw [blockStays_iff leads held inside tempNamed]
      rcases create_cases tempNamed tempProper beside with
        ⟨closed, there, dirs⟩ | ⟨opened, spot, created, found, open_, confined, alike, exists_⟩
      · rw [closed]
        dsimp only
        rw [unlink_confined tempNamed tempProper beside, confined_read, and_assoc]
        refine and_congr_right fun _ => and_congr_right fun _ =>
          ⟨fun within => ⟨within there, fun temp found apart_ => ?_⟩, fun both _ => both.1⟩
        exact absurd (dirs temp found) apart_
      · -- Once it is open, the entry of that name is removed or renamed.
        have filled : ∀ content, (opened.fill spot content).tree.directory (tempPath target).toList = some dir ∧
            (opened.fill spot content).tree.directory target.toList = some dir ∧
            (Confined root ((opened.fill spot content).unlink (tempPath target)) ↔
              Confined root (opened.fill spot content) ∧ root <+: dir) := by
          intro content
          have same := alike.trans (opened.fill_alike spot content)
          have temporary := (Tree.directory_alike same (tempPath target).toList).symm.trans beside
          obtain ⟨there, plain⟩ := filled_entry content tempNamed tempProper beside found open_ alike exists_
          refine ⟨temporary, (Tree.directory_alike same target.toList).symm.trans inside, ?_⟩
          rw [unlink_confined tempNamed tempProper temporary]
          exact and_congr_right fun _ => ⟨fun within => within there plain, fun within _ _ => within⟩
        have asked : (host.tree (dir ++ [temp]) ≠ some .dir → root <+: dir) ∧ (∀ beside,
            host.tree.leadsTo (tempPath target).toList = some beside → host.tree beside ≠ some .dir → Below root beside) ↔
              Below root spot ∧ root <+: dir := by
          constructor
          · intro ⟨within, apart_⟩
            refine ⟨apart_ spot found open_, within fun directory => ?_⟩
            have leads := Tree.leadsTo_eq tempNamed tempProper beside fun target link => absurd (directory.symm.trans link) nofun
            obtain rfl := Option.some.inj (found.symm.trans leads)
            exact open_ directory
          · intro ⟨below, within⟩
            refine ⟨fun _ => within, fun other leads _ => ?_⟩
            obtain rfl := Option.some.inj (found.symm.trans leads)
            exact below
        rw [asked, created]
        dsimp only
        have whole : ∀ content, Confined root (opened.fill spot content) ∧ root <+: dir ↔
            Confined root host ∧ Below root place ∧ Below root spot ∧ root <+: dir := by
          intro content
          rw [fill_confined, confined, confined_read, and_assoc, and_assoc]
        split
        · rw [(filled torn).2.2, whole]
        · rename_i out rebuilt
          obtain ⟨source, goal, unlinked⟩ := filled out
          rcases rename_cases tempNamed tempProper source named proper goal with failed | ⟨after, moved, kept⟩
          · rw [failed]
            dsimp only
            rw [unlinked, whole]
          · rw [moved]
            dsimp only
            rw [kept, whole]
    · rename_i other
      have stays : BlockStays root host.tree target := by
        intro spot content found held
        obtain rfl := Option.some.inj (leads.symm.trans found)
        exact absurd held (other content)
      simp [stays]

/-- The checks before the deletion loop pass, and the archive has been extracted. -/
def ReachesLoop (base container : String) (running : Bool) (untar : Posix.Tree Bytes → Posix.Tree Bytes × Except String Unit)
    (tree : Posix.Tree Bytes) (deletions : List String) (extracted : Posix.Tree Bytes) : Prop :=
  (tree.leadsTo (rootfsOf base container).toList).bind tree = some .dir ∧ running = false ∧
    (∀ d ∈ deletions, isSafeRelPath d = true) ∧ untar tree = (extracted, .ok ())

/-- At each turn of the deletion loop, in the tree as it is then, the turn's path stays inside. -/
def DeletionsStay (root : Location) (rootfs : String) (removable : Location → Bool) (tree : Posix.Tree Bytes)
    (deletions : List String) : Prop :=
  Along (fun state d => some (deleteTurn rootfs removable state d))
    (fun state d => DeletionStays root removable state.1.tree (inRootfs rootfs d)) deletions (⟨tree, []⟩, 0)

/-- At each turn of the loop over a bundle, in the tree as it is then, the turn's path stays inside. -/
def BlocksStay (root : Location) (rootfs : String) (torn : String → Bytes) (tree : Posix.Tree Bytes) (items : List FileDelta) :
    Prop :=
  Along (fun state item => some (blockTurn rootfs torn state item))
    (fun state item => state.2 = none → isSafeRelPath item.path = true →
      BlockStays root state.1.tree (inRootfs rootfs item.path)) items (⟨tree, []⟩, none)

theorem confined_nothing (root : Location) (tree : Posix.Tree Bytes) : Confined root ⟨tree, []⟩ :=
  fun _ member => absurd member List.not_mem_nil

theorem deletionLoop_confined {tree : Posix.Tree Bytes} {deletions : List String}
    (safe : ∀ d ∈ deletions, isSafeRelPath d = true) :
    Confined root (deletions.foldl (deleteTurn rootfs removable) (⟨tree, []⟩, 0)).1 ↔
      DeletionsStay root rootfs removable tree deletions := by
  have run := runSteps_fold (deleteTurn rootfs removable) deletions (⟨tree, []⟩, 0)
  refine (Along.kept_iff (fun state => Confined root state.1) ?_ run).trans (and_iff_right (confined_nothing root tree))
  intro d member state next stepped
  obtain rfl := Option.some.inj stepped
  exact deleteTurn_confined (safe d member)

theorem blockTurn_confined {torn : String → Bytes} {state : Host × Option Failed} {item : FileDelta} :
    Confined root (blockTurn rootfs torn state item).1 ↔ Confined root state.1 ∧
      (state.2 = none → isSafeRelPath item.path = true → BlockStays root state.1.tree (inRootfs rootfs item.path)) := by
  unfold blockTurn
  cases failed : state.2 with
  | some text => simp
  | none =>
    cases safe : isSafeRelPath item.path with
    | false => simp
    | true =>
      obtain ⟨front, name, named, proper⟩ := safe_named safe rootfs
      have turn : Confined root (state.1.installReconstructedFile (torn item.path) item.path _ item.ops).1 ↔ _ :=
        install_confined named proper
      simpa using turn

theorem blockLoop_confined {torn : String → Bytes} {tree : Posix.Tree Bytes} {items : List FileDelta} :
    Confined root (items.foldl (blockTurn rootfs torn) (⟨tree, []⟩, none)).1 ↔ BlocksStay root rootfs torn tree items := by
  have run := runSteps_fold (blockTurn rootfs torn) items (⟨tree, []⟩, none)
  refine (Along.kept_iff (fun state => Confined root state.1) ?_ run).trans (and_iff_right (confined_nothing root tree))
  intro item _ state next stepped
  obtain rfl := Option.some.inj stepped
  exact blockTurn_confined

/-- A delta removes, reads and replaces only what is below the rootfs exactly if its paths stay
there at each turn. -/
theorem confined_iff (root : Location) (base container : String) :
    (∀ running untar removable tree deletions,
      Confined root (applyDelta base container running untar removable ⟨tree, []⟩ deletions).1 ↔
        ∀ extracted, ReachesLoop base container running untar tree deletions extracted →
          DeletionsStay root (rootfsOf base container) removable extracted (deletions.mergeSort deletionOrder)) ∧
    ∀ torn tree blob, Confined root (applyBlockDeltas (rootfsOf base container) torn ⟨tree, []⟩ blob).1 ↔
      ∀ items, unpackFileDeltas blob = .ok items → BlocksStay root (rootfsOf base container) torn tree items := by
  constructor
  · intro running untar removable tree deletions
    unfold applyDelta
    dsimp only
    split
    · rename_i missing
      exact iff_of_true (confined_nothing root tree) fun _ reaches => absurd reaches.1 missing
    · rename_i there
      split
      · rename_i runs
        exact iff_of_true (confined_nothing root tree) fun _ reaches => absurd (runs.symm.trans reaches.2.1) nofun
      · rename_i stopped
        split
        · rename_i d found
          refine iff_of_true (confined_nothing root tree) fun _ reaches => ?_
          have safe := reaches.2.2.1 d (List.mem_of_find?_eq_some found)
          simpa [safe] using List.find?_some found
        · rename_i all
          have safe : ∀ d ∈ deletions, isSafeRelPath d = true := by
            intro d member
            simpa using List.find?_eq_none.mp all d member
          have sorted : ∀ d ∈ deletions.mergeSort deletionOrder, isSafeRelPath d = true :=
            fun d member => safe d (List.mem_mergeSort.mp member)
          split
          · rename_i extracted e failed
            exact iff_of_true (confined_nothing root extracted) fun _ reaches =>
              absurd (failed.symm.trans reaches.2.2.2) (by simp)
          · rename_i extracted done
            rw [deletionLoop_confined sorted]
            constructor
            · intro stay other reaches
              obtain rfl := (Prod.mk.inj (done.symm.trans reaches.2.2.2)).1
              exact stay
            · intro stay
              exact stay extracted ⟨not_not.mp there, by simpa using stopped, safe, done⟩
  · intro torn tree blob
    unfold applyBlockDeltas
    cases unpacked : unpackFileDeltas blob with
    | error fault => exact iff_of_true (confined_nothing root tree) nofun
    | ok items =>
      dsimp only
      rw [blockLoop_confined]
      exact ⟨fun stay _ same => Except.ok.inj same ▸ stay, fun stay => stay items rfl⟩

/-- A container's rootfs that has, as containers do, a link with an absolute target. -/
def linkedTree : Posix.Tree Bytes := fun place =>
  [(["lxc".toList], .dir), (["lxc".toList, "c".toList], .dir), (["lxc".toList, "c".toList, "rootfs".toList], .dir),
    (["lxc".toList, "c".toList, "rootfs".toList, "link".toList], .link "/etc".toList),
    (["etc".toList], .dir), (["etc".toList, "passwd".toList], Node.file [1])].lookup place

def linkedRoot : Location := ["lxc".toList, "c".toList, "rootfs".toList]

def hostFile : Location := ["etc".toList, "passwd".toList]

def foreignItem : FileDelta := ⟨"link/passwd", [.literal [2]]⟩

theorem foreign_unpacked : unpackFileDeltas (packFileDeltas [foreignItem]) = .ok [foreignItem] := by
  refine (unpack_pack_iff _ (by decide +kernel)).mpr ?_
  intro item member
  obtain rfl := List.mem_singleton.mp member
  exact ⟨by decide +kernel, by decide⟩

theorem hostFile_outside : ¬Below linkedRoot hostFile := by decide

def foreignDeletion : Host × Nat :=
  deleteTurn (rootfsOf "/lxc" "c") (fun _ => true) (⟨linkedTree, []⟩, 0) "link/passwd"

def foreignRebuild : Host × Option Failed :=
  blockTurn (rootfsOf "/lxc" "c") (fun _ => []) (⟨linkedTree, []⟩, none) foreignItem

theorem foreignDeletion_done :
    applyDelta "/lxc" "c" false (fun tree => (tree, .ok ())) (fun _ => true) ⟨linkedTree, []⟩ ["link/passwd"] =
      (foreignDeletion.1, .ok foreignDeletion.2) := by
  have safe : isSafeRelPath "link/passwd" = true := by decide +kernel
  have there : (linkedTree.leadsTo (rootfsOf "/lxc" "c").toList).bind linkedTree = some .dir := by decide +kernel
  have all : ["link/passwd"].find? (fun d => !isSafeRelPath d) = none := by simp [safe]
  unfold applyDelta
  dsimp only
  simp only [there, ne_eq, not_true_eq_false, if_false, Bool.false_eq_true, all, List.mergeSort_singleton, List.foldl_cons,
    List.foldl_nil, foreignDeletion]

theorem foreignRebuild_done :
    applyBlockDeltas (rootfsOf "/lxc" "c") (fun _ => []) ⟨linkedTree, []⟩ (packFileDeltas [foreignItem]) = foreignRebuild := by
  unfold applyBlockDeltas foreignRebuild
  simp only [foreign_unpacked, List.foldl_cons, List.foldl_nil]

/-- Both loops go through the link, and the host's file is removed, or replaced. -/
theorem link_escapes : isSafeRelPath "link/passwd" = true ∧
    linkedTree.leadsTo (rootfsOf "/lxc" "c").toList = some linkedRoot ∧ linkedTree hostFile = some (.file [1]) ∧
    (∃ after, applyDelta "/lxc" "c" false (fun tree => (tree, .ok ())) (fun _ => true) ⟨linkedTree, []⟩ ["link/passwd"] =
        (after, .ok 1) ∧ after.tree hostFile = none ∧ ¬Confined linkedRoot after) ∧
    ∃ blob after, applyBlockDeltas (rootfsOf "/lxc" "c") (fun _ => []) ⟨linkedTree, []⟩ blob = (after, none) ∧
      after.tree hostFile = some (.file [2]) ∧ ¬Confined linkedRoot after := by
  have outside : ∀ host : Host, hostFile ∈ host.touched → ¬Confined linkedRoot host :=
    fun host member confined => hostFile_outside (confined hostFile member)
  refine ⟨by decide +kernel, by decide +kernel, by decide, ?_, ?_⟩
  · have one : foreignDeletion.2 = 1 := by decide +kernel
    refine ⟨foreignDeletion.1, one ▸ foreignDeletion_done, by decide +kernel, outside _ (by decide +kernel)⟩
  · have done : foreignRebuild.2 = none := by decide +kernel
    refine ⟨packFileDeltas [foreignItem], foreignRebuild.1, ?_, by decide +kernel, outside _ (by decide +kernel)⟩
    rw [foreignRebuild_done, ← done]

end Host
end Rootfs
