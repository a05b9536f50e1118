import WolfStack.Auth.Users
import WolfStack.Effects.Latest
import WolfStack.Effects.Schedule

/-! Does the edit accepted last win? Versions are stamps of each node's own clock, a save
does not take the lock under which pushes are applied, and a file that is being written is
read as an empty list. -/

namespace Auth
open Effects

variable {Host : Type}

/-- A users file parses, or it has been truncated and not written yet, or two writes have left a mixture. -/
inductive Content (Host : Type) where
  | whole
  | truncated (by_ : Host × Nat)
  | mixed
deriving DecidableEq

/-- `users` is what was written last, the file being so as long as it is whole. From `edits` on,
what nobody reads: how many edits have been accepted, and which was the last; how many each
task's last load has seen; the tasks whose comparison an edit has overtaken; and who has taken in
a push that its sender took after the last edit. -/
structure Fleet (Host : Type) where
  users : Host → UserStore
  content : Host → Content Host
  auth : Host → AuthConfig
  clock : Host → Nat
  lock : Host → Option (Host × Nat)
  wire : List (Posted Host)
  edits : Nat
  last : Option (Host × Edit × UserStore)
  seen : Host × Nat → Nat
  overtaken : Host × Nat → Bool
  heard : List (Host × Host)

def Fleet.hearing (s : Fleet Host) (posted : Posted Host) (host : Host) : List (Host × Host) :=
  if posted.taken = s.edits then (posted.bundle.fromId, host) :: s.heard else s.heard

namespace Fleet

/-- What a users file is read as. -/
def file (s : Fleet Host) (host : Host) : UserStore :=
  match s.content host with
  | .whole => s.users host
  | .truncated _ | .mixed => .default

def register (s : Fleet Host) : Latest Host UserStore where
  holds := s.users
  last := s.last.map fun accepted => (accepted.1, accepted.2.2)
  heard i j := (i, j) ∈ s.heard

structure Snapshot (s : Fleet Host) (host : Host) (store : UserStore) (taken : Nat) : Prop where
  held : store.version ≤ (s.users host).version
  below : s.register.Below UserStore.version store
  past : taken ≤ s.edits
  current : taken = s.edits → ∀ top, s.register.last = some (host, top) → top.version ≤ store.version

structure Honest (s : Fleet Host) (posted : Posted Host) : Prop where
  snapshot : ∀ store ∈ posted.bundle.users, s.Snapshot posted.bundle.fromId store posted.taken
  version : ∀ store ∈ posted.bundle.users, posted.bundle.usersVersion = store.version
  parses : posted.bundle.users.isSome = true

structure Consistent (s : Fleet Host) : Prop where
  register : s.register.Valid UserStore.version
  shows : ∀ author edit store, s.last = some (author, edit, store) → edit.Shows store.users
  wire : ∀ posted ∈ s.wire, s.Honest posted
  unmixed : ∀ host, s.content host ≠ .mixed

structure Grows (before after : Fleet Host) : Prop where
  users : ∀ host, (before.users host).version ≤ (after.users host).version
  last : (after.last = before.last ∧ after.edits = before.edits) ∨ (before.edits < after.edits ∧
    ∀ author top, after.register.last = some (author, top) → ∀ host, (before.users host).version < top.version)

variable {before after : Fleet Host} {host : Host} {store : UserStore} {taken : Nat} {posted : Posted Host}

theorem Grows.still (users : after.users = before.users) (last : after.last = before.last) (edits : after.edits = before.edits) :
    Grows before after :=
  ⟨fun host => by rw [users], .inl ⟨last, edits⟩⟩

theorem Snapshot.grows (snapshot : before.Snapshot host store taken) (grows : Grows before after) :
    after.Snapshot host store taken := by
  have held := Nat.le_trans snapshot.held (grows.users host)
  rcases grows.last with ⟨last, edits⟩ | ⟨later, above⟩
  · have same : after.register.last = before.register.last := by
      simp only [register, last]
    refine ⟨held, fun author top accepted => ?_, ?_, fun now top accepted => ?_⟩
    · exact snapshot.below author top (same ▸ accepted)
    · rw [edits]
      exact snapshot.past
    · exact snapshot.current (now.trans edits) top (same ▸ accepted)
  · have bound := snapshot.past
    refine ⟨held, fun author top accepted => ?_, by omega, fun now => by omega⟩
    have higher := Nat.lt_of_le_of_lt snapshot.held (above author top accepted host)
    exact ⟨Nat.le_of_lt higher, fun equal => absurd equal (Nat.ne_of_lt higher)⟩

theorem Honest.grows (honest : before.Honest posted) (grows : Grows before after) : after.Honest posted where
  snapshot store found := (honest.snapshot store found).grows grows
  version := honest.version
  parses := honest.parses

theorem Consistent.load (valid : before.Consistent) (host : Host) : before.Snapshot host (before.users host) before.edits where
  held := Nat.le_refl _
  below := valid.register.below host
  past := Nat.le_refl _
  current _ top accepted := by
    have own := valid.register.own host top accepted
    rw [← own]
    exact Nat.le_refl _

theorem Consistent.next (valid : before.Consistent) (grows : Grows before after)
    (register : after.register.Valid UserStore.version) (last : after.last = before.last)
    (wire : ∀ posted ∈ after.wire, posted ∈ before.wire ∨ after.Honest posted) (unmixed : ∀ host, after.content host ≠ .mixed) :
    after.Consistent where
  register := register
  shows author edit store accepted := valid.shows author edit store (last ▸ accepted)
  wire posted member := by
    rcases wire posted member with earlier | honest
    · exact (valid.wire posted earlier).grows grows
    · exact honest
  unmixed := unmixed

end Fleet

open Fleet

/-- What the others may count on: a task that holds the lock keeps it, and learns from its
mark whether its host's file has changed; and what it has truncated waits for it. -/
structure Aside (task : Host × Nat) (before after : Fleet Host) : Prop where
  seen : after.seen task = before.seen task
  content : before.content task.1 = .truncated task → after.content task.1 = .truncated task
  lock : before.lock task.1 = some task → after.lock task.1 = some task ∧
    (after.overtaken task = true ∨ (after.overtaken task = before.overtaken task ∧ after.users task.1 = before.users task.1))

structure Promised (thread : Host × Nat) (before after : Fleet Host) : Prop where
  grows : Grows before after
  wire : ∀ posted ∈ before.wire, posted ∈ after.wire
  aside : ∀ task, task ≠ thread → Aside task before after

variable {thread : Host × Nat} {before after : Fleet Host}

theorem still_step (valid : before.Consistent) (users : after.users = before.users) (last : after.last = before.last)
    (edits : after.edits = before.edits) (heard : after.heard = before.heard) (wire : after.wire = before.wire)
    (lock : after.lock = before.lock) (seen : ∀ task, task ≠ thread → after.seen task = before.seen task)
    (overtaken : after.overtaken = before.overtaken) (content : after.content = before.content) :
    after.Consistent ∧ Promised thread before after := by
  have grows := Grows.still users last edits
  have register : after.register = before.register := by
    simp only [Fleet.register, users, last, heard]
  refine ⟨valid.next grows (register ▸ valid.register) last ?_ (content ▸ valid.unmixed), grows, ?_, ?_⟩
  · intro posted member
    exact .inl (wire ▸ member)
  · intro posted member
    exact wire ▸ member
  · intro task apart
    refine ⟨seen task apart, fun held => by rw [content, held], fun held => ⟨by rw [lock, held], .inr ⟨by rw [overtaken], by rw [users]⟩⟩⟩

theorem hearing_valid {posted : Posted Host} {users : Host → UserStore} (host : Host) (honest : before.Honest posted)
    (register : Latest.Valid UserStore.version { before.register with holds := users })
    (current : posted.bundle.usersVersion ≤ (users host).version) :
    Latest.Valid UserStore.version ⟨users, before.register.last, fun i j => (i, j) ∈ before.hearing posted host⟩ := by
  unfold Fleet.hearing
  split
  · rename_i now
    refine register.hear posted.bundle.fromId host ?_ ?_
    · intro i j member
      rcases List.mem_cons.mp member with same | earlier
      · exact .inr (Prod.mk.inj same)
      · exact .inl earlier
    · intro top accepted
      obtain ⟨store, found⟩ := Option.isSome_iff_exists.mp honest.parses
      have bound := (honest.snapshot store found).current now top accepted
      rw [honest.version store found] at current
      exact Nat.le_trans bound current
  · exact register

variable [DecidableEq Host]

/-- What is written over a truncated file is whole; where another task has written meanwhile, the longer of the two
may stand out behind the shorter one. -/
def Content.Writes (before after : Content Host) : Prop :=
  match before with
  | .truncated _ => after = .whole
  | .whole | .mixed => after = .whole ∨ after = .mixed

/-- An auth file, too, may be read as the default while it is written. -/
def Disk.Commits (thread : Host × Nat) (before : Fleet Host) : {β : Type} → Disk Host β → β → Fleet Host → Prop
  | _, .loadUsers, value, after =>
    value = before.file thread.1 ∧ after = { before with seen := Function.update before.seen thread before.edits }
  | _, .openUsers, _, after => after = { before with content := Function.update before.content thread.1 (.truncated thread) }
  | _, .saveUsers edit store, _, after => ∃ content, (before.content thread.1).Writes content ∧ after = { before with
      users := Function.update before.users thread.1 store
      content := Function.update before.content thread.1 content
      edits := before.edits + 1
      last := some (thread.1, edit, store)
      overtaken := fun task => before.overtaken task || task.1 = thread.1
      heard := [] }
  | _, .loadAuth, value, after => (value = before.auth thread.1 ∨ value = .default) ∧ after = before
  | _, .saveAuth config, _, after => after = { before with auth := Function.update before.auth thread.1 config }
  | _, .nowMs, value, after => value = before.clock thread.1 ∧ after = before
  | _, .post bundle, _, after => after = { before with wire := ⟨bundle, before.seen thread⟩ :: before.wire }
  | _, .receive, value, after => value ∈ before.wire ∧ after = before
  | _, .lock, _, after =>
    before.lock thread.1 = none ∧ after = { before with lock := Function.update before.lock thread.1 (some thread) }
  | _, .unlock, _, after => after = { before with lock := Function.update before.lock thread.1 none }
  | _, .usersNewer posted, value, after =>
    value = decide ((before.file thread.1).version < posted.bundle.usersVersion) ∧ after = { before with
      overtaken := Function.update before.overtaken thread false
      heard := if value then before.heard else before.hearing posted thread.1 }
  | _, .adoptUsers posted store, _, after => ∃ content, (before.content thread.1).Writes content ∧ after = { before with
      users := Function.update before.users thread.1 store
      content := Function.update before.content thread.1 content
      heard := before.hearing posted thread.1 }
  | _, .authNewer posted, value, after =>
    (∃ config, (config = before.auth thread.1 ∨ config = .default) ∧ value = decide (config.version < posted.bundle.authVersion)) ∧
      after = before
  | _, .adoptAuth _ config, _, after => after = { before with auth := Function.update before.auth thread.1 config }

def Fleet.Rising (s : Fleet Host) : {β : Type} → Disk Host β → Prop
  | _, .saveUsers _ store => ∀ host, (s.users host).version < store.version
  | _, _ => True

def Fleet.Undisturbed (s : Fleet Host) (thread : Host × Nat) : {β : Type} → Disk Host β → Prop
  | _, .adoptUsers _ _ => s.overtaken thread = false
  | _, _ => True

/-- No users file is read or truncated while another task is about to write it. -/
def Fleet.Apart (s : Fleet Host) (thread : Host × Nat) : {β : Type} → Disk Host β → Prop
  | _, .loadUsers | _, .openUsers | _, .usersNewer _ => ∀ task, s.content thread.1 ≠ .truncated task
  | _, _ => True

def Fleet.Ordered (s : Fleet Host) (thread : Host × Nat) {β : Type} (operation : Disk Host β) : Prop :=
  s.Rising operation ∧ s.Undisturbed thread operation ∧ s.Apart thread operation

inductive Activity (host : Host) : Program (Disk Host) Unit → Prop
  | editUsers (edit : Edit) : Activity host ((editUsers edit).bind fun _ => .pure ())
  | saveAuth (config : AuthConfig) : Activity host config.save
  | sweep : Activity host (sweepReplicateControlPlane host)
  | receive : Activity host (controlPlaneReceive.bind fun _ => .pure ())

def fleetSystem (permitted : Fleet Host → Host × Nat → {β : Type} → Disk Host β → Prop) :
    System (Fleet Host) (Disk Host) (Host × Nat) Unit where
  moves before after := ∃ clock, after = { before with clock }
  bodies thread := { program | Activity thread.1 program }
  commits thread _ before operation value after := permitted before thread operation ∧ operation.Commits thread before value after
  stops _ _ := False

def Fleet.Fresh (s : Fleet Host) : Prop := s.wire = [] ∧ s.last = none ∧ s.heard = [] ∧ ∀ host, s.content host = .whole

/-- Once pushes have gone from everyone to everyone since the last edit, it is in every file that is not just written. -/
def Fleet.Converges (s : Fleet Host) : Prop :=
  (∀ i j, i ≠ j → (i, j) ∈ s.heard) → ∀ author edit store, s.last = some (author, edit, store) →
    ∀ host, (∀ task, s.content host ≠ .truncated task) → s.file host = store ∧ edit.Shows (s.file host).users

abbrev fleetRules (thread : Host × Nat) : Rules (Fleet Host) (Disk Host) :=
  (fleetSystem Fleet.Ordered).rules Fleet.Consistent Promised thread

omit [DecidableEq Host] in
theorem Fleet.Consistent.file (valid : before.Consistent) {host : Host} (apart : ∀ task, before.content host ≠ .truncated task) :
    before.file host = before.users host := by
  unfold Fleet.file
  split
  · rfl
  · rename_i task truncated
    exact absurd truncated (apart task)
  · rename_i mixed
    exact absurd mixed (valid.unmixed host)

theorem written_unmixed {content : Content Host} (valid : before.Consistent) (opened : before.content thread.1 = .truncated thread)
    (writes : (before.content thread.1).Writes content) (host : Host) : Function.update before.content thread.1 content host ≠ .mixed := by
  by_cases same : host = thread.1
  · subst host
    rw [opened] at writes
    rw [Function.update_self, show content = .whole from writes]
    simp
  · rw [Function.update_of_ne same]
    exact valid.unmixed host

/-- Of two tasks only one can have truncated a file last. -/
theorem written_aside {content : Content Host} (opened : before.content thread.1 = .truncated thread) {task : Host × Nat} (apart : task ≠ thread)
    (held : before.content task.1 = .truncated task) : Function.update before.content thread.1 content task.1 = .truncated task := by
  by_cases same : task.1 = thread.1
  · rw [same, opened] at held
    exact absurd (Content.truncated.inj held).symm apart
  · rw [Function.update_of_ne same, held]

theorem open_step {value : Unit} (valid : before.Consistent)
    (law : (fleetSystem Fleet.Ordered).commits thread before .openUsers value after) :
    after.Consistent ∧ Promised thread before after ∧ after.content thread.1 = .truncated thread := by
  obtain ⟨⟨-, -, free⟩, rfl⟩ := law
  have grows : Grows before { before with content := Function.update before.content thread.1 (.truncated thread) } := .still rfl rfl rfl
  refine ⟨valid.next grows valid.register rfl (fun _ there => .inl there) fun host => ?_, ⟨grows, fun _ there => there, ?_⟩,
    Function.update_self _ _ _⟩
  · by_cases same : host = thread.1
    · simp [same]
    · simpa [same] using valid.unmixed host
  · intro task apart
    refine ⟨rfl, fun held => ?_, fun held => ⟨held, .inr ⟨rfl, rfl⟩⟩⟩
    have elsewhere : task.1 ≠ thread.1 := by
      intro same
      exact free task (same ▸ held)
    exact (Function.update_of_ne elsewhere _ _).trans held

theorem save_step {edit : Edit} {store : UserStore} {value : Unit} (valid : before.Consistent) (shows : edit.Shows store.users)
    (opened : before.content thread.1 = .truncated thread)
    (law : (fleetSystem Fleet.Ordered).commits thread before (.saveUsers edit store) value after) :
    after.Consistent ∧ Promised thread before after := by
  obtain ⟨⟨above, -⟩, content, writes, rfl⟩ := law
  have grows : Grows before { before with
      users := Function.update before.users thread.1 store
      content := Function.update before.content thread.1 content
      edits := before.edits + 1
      last := some (thread.1, edit, store)
      overtaken := fun task => before.overtaken task || task.1 = thread.1
      heard := [] } := by
    constructor
    · intro host
      by_cases same : host = thread.1
      · subst host
        simp only [Function.update_self]
        exact Nat.le_of_lt (above _)
      · simp only [Function.update_of_ne same]
        exact Nat.le_refl _
    · refine .inr ⟨Nat.lt_succ_self _, ?_⟩
      rintro author top ⟨⟩ host
      exact above host
  refine ⟨⟨?_, ?_, ?_, written_unmixed valid opened writes⟩, grows, fun posted member => member, ?_⟩
  · have accepted := Latest.valid_accept before.register thread.1 above
    refine ⟨accepted.below, accepted.own, fun i j told => ?_⟩
    cases told
  · rintro author other top ⟨⟩
    exact shows
  · exact fun posted member => (valid.wire posted member).grows grows
  · intro task apart
    refine ⟨rfl, written_aside opened apart, fun held => ⟨held, ?_⟩⟩
    by_cases same : task.1 = thread.1
    · exact .inl (by simp [same])
    · refine .inr ⟨by simp [same], Function.update_of_ne same _ _⟩

theorem post_step {bundle : Bundle Host} {value : Unit} (valid : before.Consistent) (honest : before.Honest ⟨bundle, before.seen thread⟩)
    (law : (fleetSystem Fleet.Ordered).commits thread before (.post bundle) value after) :
    after.Consistent ∧ Promised thread before after := by
  obtain ⟨-, rfl⟩ := law
  have grows : Grows before { before with wire := ⟨bundle, before.seen thread⟩ :: before.wire } := .still rfl rfl rfl
  refine ⟨valid.next grows valid.register rfl (fun posted member => ?_) valid.unmixed, grows, ?_, ?_⟩
  · rcases List.mem_cons.mp member with rfl | earlier
    · exact .inr (honest.grows grows)
    · exact .inl earlier
  · exact fun posted member => List.mem_cons_of_mem _ member
  · exact fun task apart => ⟨rfl, fun held => held, fun held => ⟨held, .inr ⟨rfl, rfl⟩⟩⟩

theorem compare_step {posted : Posted Host} {value : Bool} (valid : before.Consistent) (member : posted ∈ before.wire)
    (law : (fleetSystem Fleet.Ordered).commits thread before (.usersNewer posted) value after) :
    after.Consistent ∧ Promised thread before after ∧
      (value = true → (after.users thread.1).version < posted.bundle.usersVersion) := by
  obtain ⟨⟨-, -, free⟩, rfl, rfl⟩ := law
  rw [valid.file free]
  have grows : Grows before { before with
      overtaken := Function.update before.overtaken thread false
      heard := if (before.users thread.1).version < posted.bundle.usersVersion then before.heard
        else before.hearing posted thread.1 } := .still rfl rfl rfl
  simp only [decide_eq_true_eq]
  refine ⟨valid.next grows ?_ rfl (fun _ there => .inl there) valid.unmixed, ⟨grows, fun _ there => there, ?_⟩, fun newer => newer⟩
  · by_cases newer : (before.users thread.1).version < posted.bundle.usersVersion
    · simp only [newer, if_true]
      exact valid.register
    · have heard := hearing_valid thread.1 (valid.wire posted member) valid.register (Nat.le_of_not_lt newer)
      simp only [newer, if_false]
      exact heard
  · intro task apart
    exact ⟨rfl, fun held => held, fun held => ⟨held, .inr ⟨Function.update_of_ne apart _ _, rfl⟩⟩⟩

theorem adopt_step {posted : Posted Host} {store : UserStore} {value : Unit} (valid : before.Consistent)
    (member : posted ∈ before.wire) (found : posted.bundle.users = some store) (locked : before.lock thread.1 = some thread)
    (opened : before.content thread.1 = .truncated thread)
    (newer : before.overtaken thread = false → (before.users thread.1).version < posted.bundle.usersVersion)
    (law : (fleetSystem Fleet.Ordered).commits thread before (.adoptUsers posted store) value after) :
    after.Consistent ∧ Promised thread before after := by
  obtain ⟨⟨-, current, -⟩, content, writes, rfl⟩ := law
  have honest := valid.wire posted member
  have higher : (before.users thread.1).version < store.version := by
    rw [← honest.version store found]
    exact newer current
  have grows : Grows before { before with
      users := Function.update before.users thread.1 store
      content := Function.update before.content thread.1 content
      heard := before.hearing posted thread.1 } := by
    refine ⟨fun host => ?_, .inl ⟨rfl, rfl⟩⟩
    by_cases same : host = thread.1
    · subst host
      simp only [Function.update_self]
      exact Nat.le_of_lt higher
    · simp only [Function.update_of_ne same]
      exact Nat.le_refl _
  refine ⟨valid.next grows ?_ rfl (fun _ there => .inl there) (written_unmixed valid opened writes), grows, fun _ there => there, ?_⟩
  · have adopted := valid.register.adopt thread.1 (honest.snapshot store found).below higher
    have held : posted.bundle.usersVersion ≤ (Function.update before.users thread.1 store thread.1).version := by
      rw [honest.version store found, Function.update_self]
    exact hearing_valid thread.1 honest adopted held
  · intro task apart
    refine ⟨rfl, written_aside opened apart, fun held => ⟨held, .inr ⟨rfl, ?_⟩⟩⟩
    refine Function.update_of_ne (fun same => apart ?_) _ _
    rw [same, locked] at held
    exact (Option.some.inj held).symm

theorem lock_step {value : Unit} (valid : before.Consistent)
    (law : (fleetSystem Fleet.Ordered).commits thread before .lock value after) :
    after.Consistent ∧ Promised thread before after ∧ after.lock thread.1 = some thread ∧ after.wire = before.wire := by
  obtain ⟨-, free, rfl⟩ := law
  have grows : Grows before { before with lock := Function.update before.lock thread.1 (some thread) } := .still rfl rfl rfl
  refine ⟨valid.next grows valid.register rfl (fun _ there => .inl there) valid.unmixed, ⟨grows, fun _ there => there, ?_⟩,
    Function.update_self _ _ _, rfl⟩
  intro task apart
  refine ⟨rfl, fun held => held, fun held => ⟨?_, .inr ⟨rfl, rfl⟩⟩⟩
  have elsewhere : task.1 ≠ thread.1 := by
    intro same
    rw [same, free] at held
    cases held
  exact (Function.update_of_ne elsewhere _ _).trans held

theorem unlock_step {value : Unit} (valid : before.Consistent) (locked : before.lock thread.1 = some thread)
    (law : (fleetSystem Fleet.Ordered).commits thread before .unlock value after) :
    after.Consistent ∧ Promised thread before after := by
  obtain ⟨-, rfl⟩ := law
  have grows : Grows before { before with lock := Function.update before.lock thread.1 none } := .still rfl rfl rfl
  refine ⟨valid.next grows valid.register rfl (fun _ there => .inl there) valid.unmixed, grows, fun _ there => there, ?_⟩
  intro task apart
  refine ⟨rfl, fun held => held, fun held => ⟨?_, .inr ⟨rfl, rfl⟩⟩⟩
  have elsewhere : task.1 ≠ thread.1 := by
    intro same
    rw [same, locked] at held
    exact apart (Option.some.inj held).symm
  exact (Function.update_of_ne elsewhere _ _).trans held

def Disk.Idle : {β : Type} → Disk Host β → Prop
  | _, .loadUsers | _, .loadAuth | _, .saveAuth _ | _, .nowMs | _, .receive | _, .authNewer _ | _, .adoptAuth .. => True
  | _, _ => False

theorem idle_step {β : Type} {operation : Disk Host β} {value : β} (idle : operation.Idle) (valid : before.Consistent)
    (law : (fleetSystem Fleet.Ordered).commits thread before operation value after) :
    (after.Consistent ∧ Promised thread before after) ∧ after.users = before.users ∧ after.lock = before.lock ∧
      after.wire = before.wire := by
  obtain ⟨-, runs⟩ := law
  cases operation with
  | loadUsers =>
    obtain ⟨-, rfl⟩ := runs
    exact ⟨still_step valid rfl rfl rfl rfl rfl rfl (fun task apart => Function.update_of_ne apart _ _) rfl rfl, rfl, rfl, rfl⟩
  | loadAuth | nowMs | receive | authNewer _ =>
    obtain ⟨-, rfl⟩ := runs
    exact ⟨still_step valid rfl rfl rfl rfl rfl rfl (fun _ _ => rfl) rfl rfl, rfl, rfl, rfl⟩
  | saveAuth _ | adoptAuth _ _ =>
    obtain rfl := runs
    exact ⟨still_step valid rfl rfl rfl rfl rfl rfl (fun _ _ => rfl) rfl rfl, rfl, rfl, rfl⟩
  | _ => exact idle.elim

structure Critical (posted : Posted Host) (thread : Host × Nat) (s : Fleet Host) : Prop where
  there : posted ∈ s.wire
  locked : s.lock thread.1 = some thread

theorem anything_stable : (fleetRules thread).Stable fun _ => True := fun _ _ _ _ _ _ => trivial

theorem snapshot_stable (store : UserStore) : (fleetRules thread).Stable fun s => s.Snapshot thread.1 store (s.seen thread) := by
  rintro before after _ _ (⟨clock, rfl⟩ | ⟨other, apart, promised⟩) snapshot
  · exact snapshot.grows (.still rfl rfl rfl)
  · rw [(promised.aside thread apart.symm).seen]
    exact snapshot.grows promised.grows

theorem there_stable (posted : Posted Host) : (fleetRules thread).Stable fun s => posted ∈ s.wire := by
  rintro before after _ _ (⟨clock, rfl⟩ | ⟨other, apart, promised⟩) there
  · exact there
  · exact promised.wire posted there

theorem critical_stable (posted : Posted Host) : (fleetRules thread).Stable (Critical posted thread) := by
  rintro before after kept last moved ⟨there, locked⟩
  refine ⟨there_stable posted before after kept last moved there, ?_⟩
  rcases moved with ⟨clock, rfl⟩ | ⟨other, apart, promised⟩
  · exact locked
  · exact ((promised.aside thread apart.symm).lock locked).1

structure Newer (posted : Posted Host) (thread : Host × Nat) (s : Fleet Host) : Prop extends Critical posted thread s where
  newer : s.overtaken thread = false → (s.users thread.1).version < posted.bundle.usersVersion

theorem newer_stable (posted : Posted Host) : (fleetRules thread).Stable (Newer posted thread) := by
  rintro before after kept last moved ⟨critical, newer⟩
  refine ⟨critical_stable posted before after kept last moved critical, ?_⟩
  rcases moved with ⟨clock, rfl⟩ | ⟨other, apart, promised⟩
  · exact newer
  · intro current
    rcases ((promised.aside thread apart.symm).lock critical.locked).2 with marked | ⟨mark, users⟩
    · rw [marked] at current
      cases current
    · rw [users]
      exact newer (mark ▸ current)

theorem opened_stable : (fleetRules thread).Stable fun s => s.content thread.1 = .truncated thread := by
  rintro before after _ _ (⟨clock, rfl⟩ | ⟨other, apart, promised⟩) opened
  · exact opened
  · exact (promised.aside thread apart.symm).content opened

theorem idleTriple {program : Program (Disk Host) Unit} (idle : program.Yields Disk.Idle fun _ => True) :
    (fleetRules thread).Triple (fun _ => True) program fun _ _ => True := by
  refine (Rules.Triple.yields idle anything_stable ?_).weaken_post fun _ _ _ _ => trivial
  intro before β operation value after valid _ kind law
  obtain ⟨⟨kept, promised⟩, -⟩ := idle_step kind valid law
  exact ⟨kept, promised, trivial⟩

theorem idle_leading {α β : Type} {operation : Disk Host β} (idle : operation.Idle) {next : β → Program (Disk Host) α}
    {post : α → Fleet Host → Prop} (rest : ∀ value, (fleetRules thread).Triple (fun _ => True) (next value) post) :
    (fleetRules thread).Triple (fun _ => True) (.request operation next) post := by
  refine Rules.Triple.leading (fun _ _ => True) anything_stable ?_ rest
  intro before value after valid _ law
  obtain ⟨⟨kept, promised⟩, -⟩ := idle_step idle valid law
  exact ⟨kept, promised, trivial⟩

/-- What an edit saves shows it, and the file that it has truncated is its own until then. -/
theorem saveTriple {edit : Edit} {store : UserStore} (shows : edit.Shows store.users) :
    (fleetRules thread).Triple (fun _ => True) (UserStore.save edit store) fun _ _ => True := by
  refine idle_leading ?_ fun now => ?_
  · exact trivial
  refine Rules.Triple.leading (fun _ s => s.content thread.1 = .truncated thread) anything_stable ?_ fun _ => ?_
  · exact fun before value after valid _ law => open_step valid law
  · refine Rules.Triple.send opened_stable (fun _ => anything_stable) ?_
    intro before value after valid opened law
    have shown : edit.Shows { store with version := now }.users := shows
    obtain ⟨kept, promised⟩ := save_step valid shown opened law
    exact ⟨kept, promised, trivial⟩

theorem editTriple (edit : Edit) : (fleetRules thread).Triple (fun _ => True) ((editUsers edit).bind fun _ => .pure ()) fun _ _ => True := by
  refine Rules.Triple.via (fun _ _ => True) ?_ fun _ => .pure _ anything_stable fun _ _ _ => trivial
  refine idle_leading ?_ fun store => ?_
  · exact trivial
  dsimp only [Program.pure_bind]
  split
  · exact .pure _ anything_stable fun _ _ _ => trivial
  · rename_i users applied
    exact Rules.Triple.via (fun _ _ => True) (saveTriple (Edit.apply_shows applied)) fun _ => .pure _ anything_stable fun _ _ _ => trivial

theorem sweepTriple : (fleetRules thread).Triple (fun _ => True) (sweepReplicateControlPlane thread.1) fun _ _ => True := by
  refine Rules.Triple.leading (fun store s => s.Snapshot thread.1 store (s.seen thread)) anything_stable ?_ fun store => ?_
  · intro before value after valid _ law
    have idle : (Disk.loadUsers : Disk Host _).Idle := trivial
    obtain ⟨⟨kept, promised⟩, -⟩ := idle_step idle valid law
    refine ⟨kept, promised, ?_⟩
    obtain ⟨⟨-, -, free⟩, rfl, rfl⟩ := law
    rw [valid.file free]
    simp only [Function.update_self]
    exact (valid.load thread.1).grows (.still rfl rfl rfl)
  · refine Rules.Triple.leading (fun _ s => s.Snapshot thread.1 store (s.seen thread)) (snapshot_stable store) ?_ fun auth => ?_
    · intro before value after valid snapshot law
      have idle : (Disk.loadAuth : Disk Host _).Idle := trivial
      obtain ⟨⟨kept, promised⟩, -⟩ := idle_step idle valid law
      obtain ⟨-, -, rfl⟩ := law
      exact ⟨kept, promised, snapshot⟩
    · refine Rules.Triple.send (snapshot_stable store) (fun _ => anything_stable) ?_
      intro before value after valid snapshot law
      have honest : before.Honest ⟨⟨thread.1, some store, store.version, some auth, auth.version⟩, before.seen thread⟩ := by
        constructor
        · rintro _ ⟨⟩
          exact snapshot
        · rintro _ ⟨⟩
          rfl
        · rfl
      obtain ⟨kept, promised⟩ := post_step valid honest law
      exact ⟨kept, promised, trivial⟩

theorem critical_idle {β : Type} {operation : Disk Host β} {value : β} {posted : Posted Host} (idle : operation.Idle)
    (valid : before.Consistent) (critical : Critical posted thread before)
    (law : (fleetSystem Fleet.Ordered).commits thread before operation value after) :
    after.Consistent ∧ Promised thread before after ∧ Critical posted thread after := by
  obtain ⟨⟨kept, promised⟩, -, lock, wire⟩ := idle_step idle valid law
  exact ⟨kept, promised, wire ▸ critical.there, lock ▸ critical.locked⟩

theorem applyUsersTriple (posted : Posted Host) :
    (fleetRules thread).Triple (Critical posted thread) (applyUsers posted) fun _ => Critical posted thread := by
  have pure : ∀ updated : Bool, (fleetRules thread).Triple (Critical posted thread) (.pure updated) fun _ => Critical posted thread :=
    fun updated => .pure updated (critical_stable posted) fun _ _ critical => critical
  refine Rules.Triple.leading (fun newer s => Critical posted thread s ∧ (newer = true → Newer posted thread s))
    (critical_stable posted) ?_ fun newer => ?_
  · intro before value after valid critical law
    obtain ⟨kept, promised, newer⟩ := compare_step valid critical.there law
    have still : Critical posted thread after := by
      refine ⟨promised.wire posted critical.there, ?_⟩
      obtain ⟨-, -, rfl⟩ := law
      exact critical.locked
    exact ⟨kept, promised, still, fun held => ⟨still, fun _ => newer held⟩⟩
  · cases newer with
    | false => exact (pure false).weaken fun _ _ holds => holds.1
    | true =>
      rw [Program.pure_bind, if_pos rfl]
      split
      · rename_i store found
        refine Rules.Triple.given (Newer posted thread) ?_ fun _ _ holds => holds.2 rfl
        refine Rules.Triple.leading (fun _ s => Newer posted thread s ∧ s.content thread.1 = .truncated thread) (newer_stable posted) ?_ fun _ => ?_
        · intro before value after valid newer law
          obtain ⟨kept, promised, opened⟩ := open_step valid law
          obtain ⟨-, rfl⟩ := law
          exact ⟨kept, promised, ⟨⟨newer.there, newer.locked⟩, newer.newer⟩, opened⟩
        · have stable : (fleetRules thread).Stable fun s => Newer posted thread s ∧ s.content thread.1 = .truncated thread :=
            fun before after kept last moved holds =>
              ⟨newer_stable posted before after kept last moved holds.1, opened_stable before after kept last moved holds.2⟩
          refine Rules.Triple.leading (fun _ => Critical posted thread) stable ?_ fun _ => pure true
          rintro before value after valid ⟨newer, opened⟩ law
          obtain ⟨kept, promised⟩ := adopt_step valid newer.there found newer.locked opened newer.newer law
          refine ⟨kept, promised, promised.wire posted newer.there, ?_⟩
          obtain ⟨-, content, -, rfl⟩ := law
          exact newer.locked
      · exact (pure false).weaken fun _ _ holds => holds.1

theorem applyAuthTriple (posted : Posted Host) :
    (fleetRules thread).Triple (Critical posted thread) (applyAuth posted) fun _ => Critical posted thread := by
  have idle : (applyAuth posted).Yields Disk.Idle fun _ => True := by
    refine ⟨trivial, fun newer => ?_⟩
    cases newer with
    | false => trivial
    | true =>
      dsimp only [Program.bind]
      rw [if_pos rfl]
      split
      · exact ⟨trivial, fun _ => trivial⟩
      · trivial
  refine (Rules.Triple.yields idle (critical_stable posted) ?_).weaken_post fun _ _ _ holds => holds.2
  exact fun before β operation value after valid critical kind law => critical_idle kind valid critical law

theorem controlPlaneApplyTriple (posted : Posted Host) :
    (fleetRules thread).Triple (fun s => posted ∈ s.wire) (controlPlaneApply posted) fun _ _ => True := by
  refine Rules.Triple.leading (fun _ => Critical posted thread) (there_stable posted) ?_ fun _ => ?_
  · intro before value after valid there law
    obtain ⟨kept, promised, locked, wire⟩ := lock_step valid law
    exact ⟨kept, promised, wire ▸ there, locked⟩
  · change (fleetRules thread).Triple _ ((applyUsers posted).bind fun users => _) _
    refine Rules.Triple.via (fun _ => Critical posted thread) (applyUsersTriple posted) fun users => ?_
    refine Rules.Triple.via (fun _ => Critical posted thread) (applyAuthTriple posted) fun auth => ?_
    refine Rules.Triple.leading (fun _ _ => True) (critical_stable posted) ?_ fun _ => ?_
    · intro before value after valid critical law
      obtain ⟨kept, promised⟩ := unlock_step valid critical.locked law
      exact ⟨kept, promised, trivial⟩
    · exact .pure _ anything_stable fun _ _ _ => trivial

theorem receiveTriple : (fleetRules thread).Triple (fun _ => True) (controlPlaneReceive.bind fun _ => .pure ()) fun _ _ => True := by
  refine Rules.Triple.via (fun _ _ => True) ?_ fun _ => .pure _ anything_stable fun _ _ _ => trivial
  refine Rules.Triple.leading (fun posted s => posted ∈ s.wire) anything_stable ?_ controlPlaneApplyTriple
  intro before value after valid _ law
  have idle : (Disk.receive : Disk Host _).Idle := trivial
  obtain ⟨⟨kept, promised⟩, -⟩ := idle_step idle valid law
  obtain ⟨-, there, rfl⟩ := law
  exact ⟨kept, promised, there⟩

theorem activityTriple {program : Program (Disk Host) Unit} (activity : Activity thread.1 program) :
    (fleetRules thread).Triple (fun _ => True) program fun _ _ => True := by
  cases activity with
  | editUsers edit => exact editTriple edit
  | saveAuth config => exact idleTriple ⟨trivial, fun now => ⟨trivial, fun _ => trivial⟩⟩
  | sweep => exact sweepTriple
  | receive => exact receiveTriple

omit [DecidableEq Host] in
theorem fresh_consistent {s : Fleet Host} (fresh : s.Fresh) : s.Consistent := by
  obtain ⟨wire, last, heard, whole⟩ := fresh
  have none_ : s.register.last = none := by simp [Fleet.register, last]
  refine ⟨⟨fun i author top accepted => ?_, fun author top accepted => ?_, fun i j _ top accepted => ?_⟩, ?_, ?_, ?_⟩
  · rw [none_] at accepted
    cases accepted
  · rw [none_] at accepted
    cases accepted
  · rw [none_] at accepted
    cases accepted
  · intro author edit store accepted
    rw [last] at accepted
    cases accepted
  · intro posted member
    rw [wire] at member
    cases member
  · intro host
    rw [whole host]
    simp

/-- In a run in which stamps rise across the fleet, no save overtakes an apply and no file is touched while it is written,
the edit accepted last is everywhere once pushes have gone from everyone to everyone. -/
theorem last_edit_everywhere {s : Fleet Host} (reached : (fleetSystem Fleet.Ordered).Reaches Fleet.Fresh s) : s.Converges := by
  have sound : (fleetSystem (@Fleet.Ordered Host)).Sound Fleet.Fresh Fleet.Consistent Promised fun _ _ => True := by
    constructor
    · exact fun s fresh => ⟨fresh_consistent fresh, fun _ => trivial⟩
    · rintro before after valid ⟨clock, rfl⟩
      exact ⟨valid.next (.still rfl rfl rfl) valid.register rfl (fun _ there => .inl there) valid.unmixed, fun _ _ => trivial⟩
    · exact fun _ _ _ _ _ _ _ _ _ => trivial
    · exact fun thread program body => activityTriple body
    · exact fun _ _ _ _ => trivial
  have valid := sound.reaches reached
  intro all author edit store accepted host settled
  have last : s.register.last = some (author, store) := by simp [Fleet.register, accepted]
  have same : s.users host = store := valid.register.settled all last host
  rw [valid.file settled, same]
  exact ⟨rfl, valid.shows author edit store accepted⟩

/-- One of the two ways in which a write may end. -/
def Content.write : Content Host → Content Host
  | .truncated _ => .whole
  | .whole | .mixed => .mixed

omit [DecidableEq Host] in
theorem Content.write_writes (content : Content Host) : content.Writes content.write := by
  cases content with
  | truncated _ => rfl
  | whole | mixed => exact .inr rfl

def Disk.run (thread : Host × Nat) (s : Fleet Host) : {β : Type} → Disk Host β → Option (Fleet Host × β)
  | _, .loadUsers => some ({ s with seen := Function.update s.seen thread s.edits }, s.file thread.1)
  | _, .openUsers => some ({ s with content := Function.update s.content thread.1 (.truncated thread) }, ())
  | _, .saveUsers edit store =>
    let overtaken := fun task => s.overtaken task || task.1 = thread.1
    some ({ s with
      users := Function.update s.users thread.1 store
      content := Function.update s.content thread.1 (s.content thread.1).write
      edits := s.edits + 1
      last := some (thread.1, edit, store)
      overtaken
      heard := [] }, ())
  | _, .loadAuth => some (s, s.auth thread.1)
  | _, .saveAuth config => some ({ s with auth := Function.update s.auth thread.1 config }, ())
  | _, .nowMs => some (s, s.clock thread.1)
  | _, .post bundle => some ({ s with wire := ⟨bundle, s.seen thread⟩ :: s.wire }, ())
  | _, .receive => (s.wire.find? fun posted => posted.bundle.fromId ≠ thread.1).map fun posted => (s, posted)
  | _, .lock => if s.lock thread.1 = none then some ({ s with lock := Function.update s.lock thread.1 (some thread) }, ()) else none
  | _, .unlock => some ({ s with lock := Function.update s.lock thread.1 none }, ())
  | _, .usersNewer posted =>
    let newer := decide ((s.file thread.1).version < posted.bundle.usersVersion)
    let heard := if newer then s.heard else s.hearing posted thread.1
    some ({ s with overtaken := Function.update s.overtaken thread false, heard }, newer)
  | _, .adoptUsers posted store =>
    let content := Function.update s.content thread.1 (s.content thread.1).write
    some ({ s with users := Function.update s.users thread.1 store, content, heard := s.hearing posted thread.1 }, ())
  | _, .authNewer posted => some (s, (s.auth thread.1).version < posted.bundle.authVersion)
  | _, .adoptAuth _ config => some ({ s with auth := Function.update s.auth thread.1 config }, ())

theorem Disk.run_commits {β : Type} {operation : Disk Host β} {value : β}
    (ran : operation.run thread before = some (after, value)) : operation.Commits thread before value after := by
  cases operation with
  | receive =>
    obtain ⟨posted, found, same⟩ := Option.map_eq_some_iff.mp ran
    cases same
    exact ⟨List.mem_of_find?_eq_some found, rfl⟩
  | lock =>
    simp only [run] at ran
    split at ran
    · rename_i free
      cases ran
      exact ⟨free, rfl⟩
    · cases ran
  | loadUsers | nowMs | usersNewer _ =>
    cases ran
    exact ⟨rfl, rfl⟩
  | loadAuth =>
    cases ran
    exact ⟨.inl rfl, rfl⟩
  | authNewer _ =>
    cases ran
    exact ⟨⟨_, .inl rfl, rfl⟩, rfl⟩
  | saveUsers _ _ | adoptUsers _ _ =>
    cases ran
    exact ⟨_, Content.write_writes _, rfl⟩
  | _ =>
    cases ran
    rfl

def Fleet.serve (allowed : Fleet Host → Host × Nat → {β : Type} → Disk Host β → Bool) (thread : Host × Nat) (_ : Nat) {β : Type}
    (s : Fleet Host) (operation : Disk Host β) : Option (Fleet Host × β) :=
  if allowed s thread operation = true then operation.run thread s else none

theorem fleet_commits {allowed : Fleet Host → Host × Nat → {β : Type} → Disk Host β → Bool}
    {permitted : Fleet Host → Host × Nat → {β : Type} → Disk Host β → Prop}
    (checked : ∀ s thread {β : Type} (operation : Disk Host β), allowed s thread operation = true → permitted s thread operation)
    (thread : Host × Nat) (index : Nat) {β : Type} (s : Fleet Host) (operation : Disk Host β) (after : Fleet Host) (value : β)
    (served : Fleet.serve allowed thread index s operation = some (after, value)) :
    (fleetSystem permitted).commits thread s operation value after := by
  simp only [Fleet.serve] at served
  split at served
  · rename_i may
    exact ⟨checked s thread operation may, Disk.run_commits served⟩
  · cases served

def rising (s : Fleet Bool) : {β : Type} → Disk Bool β → Bool
  | _, .saveUsers _ store => (s.users false).version < store.version && (s.users true).version < store.version
  | _, _ => true

def undisturbed (s : Fleet Bool) (thread : Bool × Nat) : {β : Type} → Disk Bool β → Bool
  | _, .adoptUsers _ _ => !s.overtaken thread
  | _, _ => true

theorem rising_checked {s : Fleet Bool} {β : Type} {operation : Disk Bool β} (may : rising s operation = true) : s.Rising operation := by
  cases operation with
  | saveUsers edit store =>
    simp only [rising, Bool.and_eq_true, decide_eq_true_eq] at may
    intro host
    cases host with
    | false => exact may.1
    | true => exact may.2
  | _ => trivial

theorem undisturbed_checked {s : Fleet Bool} {thread : Bool × Nat} {β : Type} {operation : Disk Bool β}
    (may : undisturbed s thread operation = true) : s.Undisturbed thread operation := by
  cases operation with
  | adoptUsers posted store => simpa [undisturbed, Fleet.Undisturbed] using may
  | _ => trivial

def parted (s : Fleet Bool) (thread : Bool × Nat) : {β : Type} → Disk Bool β → Bool
  | _, .loadUsers | _, .openUsers | _, .usersNewer _ =>
    match s.content thread.1 with
    | .truncated _ => false
    | .whole | .mixed => true
  | _, _ => true

theorem parted_checked {s : Fleet Bool} {thread : Bool × Nat} {β : Type} {operation : Disk Bool β}
    (may : parted s thread operation = true) : s.Apart thread operation := by
  cases operation with
  | loadUsers | openUsers | usersNewer _ =>
    intro task truncated
    simp only [parted, truncated] at may
    cases may
  | _ => trivial

def newFleet (clock : Bool → Nat) : Fleet Bool where
  users _ := .default
  content _ := .whole
  auth _ := .default
  clock := clock
  lock _ := none
  wire := []
  edits := 0
  last := none
  seen _ := 0
  overtaken _ := false
  heard := []

def sampleUser (username : String) : WolfUser := ⟨username, "$6$aa", "", false, "admin", "", "", "", []⟩

abbrev FleetTurn := Turn (Fleet Bool) (Disk Bool) (Bool × Nat) Unit

def edits (host : Bool) (edit : Edit) : List FleetTurn := Turn.whole (host, 1) ((editUsers edit).bind fun _ => .pure ()) 4

def sweeps (host : Bool) : List FleetTurn := Turn.whole (host, 0) (sweepReplicateControlPlane host) 3

def receives (host : Bool) : List FleetTurn := Turn.whole (host, 0) (controlPlaneReceive.bind fun _ => .pure ()) 7

def addedAndRemoved : List FleetTurn :=
  edits false (.add (sampleUser "alice")) ++ sweeps false ++ receives true ++ edits true (.remove "alice") ++
    sweeps true ++ receives false ++ sweeps false ++ receives true

def savedMeanwhile : List FleetTurn :=
  edits false (.add (sampleUser "alice")) ++ sweeps false ++
    [.start (true, 0) (controlPlaneReceive.bind fun _ => .pure ()), .advance (true, 0) 3] ++ edits true (.add (sampleUser "bob")) ++
    [.advance (true, 0) 4, .finish (true, 0)] ++ sweeps true ++ receives false ++ sweeps false ++ receives true

/-- Two saves on one node, each of which has truncated the file before either writes it. -/
def savedTogether : List FleetTurn :=
  [.start (false, 1) ((editUsers (.add (sampleUser "al"))).bind fun _ => .pure ()), .advance (false, 1) 1,
    .start (false, 2) ((editUsers (.add (sampleUser "barbara"))).bind fun _ => .pure ()), .advance (false, 2) 3,
    .move (fun s => some { s with clock := fun _ => 4000 }), .advance (false, 1) 2, .advance (false, 2) 1, .finish (false, 2),
    .advance (false, 1) 1, .finish (false, 1)] ++ sweeps false ++ receives true ++ sweeps true ++ receives false

variable {permitted : Fleet Bool → Bool × Nat → {β : Type} → Disk Bool β → Prop}

theorem addedAndRemoved_lawful : ∀ turn ∈ addedAndRemoved, turn.Lawful (fleetSystem permitted) := by
  simp [addedAndRemoved, edits, sweeps, receives, Turn.whole, Turn.Lawful, fleetSystem, Activity.editUsers, Activity.sweep,
    Activity.receive]

theorem savedMeanwhile_lawful : ∀ turn ∈ savedMeanwhile, turn.Lawful (fleetSystem permitted) := by
  simp [savedMeanwhile, edits, sweeps, receives, Turn.whole, Turn.Lawful, fleetSystem, Activity.editUsers, Activity.sweep,
    Activity.receive]

theorem savedTogether_lawful : ∀ turn ∈ savedTogether, turn.Lawful (fleetSystem permitted) := by
  simp only [savedTogether, sweeps, receives, Turn.whole, List.cons_append, List.nil_append, List.forall_mem_cons, List.not_mem_nil,
    Turn.Lawful, fleetSystem, Set.mem_ofPred_eq, true_and]
  refine ⟨.editUsers _, .editUsers _, ?_, .sweep, .receive, .sweep, .receive, fun _ none_ => none_.elim⟩
  rintro before after ⟨⟩
  exact ⟨_, rfl⟩

theorem last_edit_everywhere_sample : ∃ s : Fleet Bool, (fleetSystem Fleet.Ordered).Reaches Fleet.Fresh s ∧
    (∀ i j, i ≠ j → (i, j) ∈ s.heard) ∧ s.last.isSome = true ∧ (∀ host, s.content host = .whole) ∧ s.Converges := by
  have checked : ∀ (s : Fleet Bool) (thread : Bool × Nat) {β : Type} (operation : Disk Bool β),
      (rising s operation && (undisturbed s thread operation && parted s thread operation)) = true → s.Ordered thread operation := by
    intro s thread β operation may
    rw [Bool.and_eq_true, Bool.and_eq_true] at may
    exact ⟨rising_checked may.1, undisturbed_checked may.2.1, parted_checked may.2.2⟩
  obtain ⟨s, reached, passed⟩ := @conduct_reaches _ _ _ _ _ (fleetSystem Fleet.Ordered) (Fleet.serve _) Fleet.Fresh
    (newFleet fun host => if host then 3000 else 2000) ⟨rfl, rfl, rfl, fun _ => rfl⟩ (fleet_commits checked) addedAndRemoved
    addedAndRemoved_lawful (fun s => decide ((∀ i j, i ≠ j → (i, j) ∈ s.heard) ∧ s.last.isSome = true ∧ ∀ host, s.content host = .whole))
    (by decide +kernel)
  obtain ⟨heard, accepted, whole⟩ := of_decide_eq_true passed
  exact ⟨s, reached, heard, accepted, whole, last_edit_everywhere reached⟩

/-- Everybody has heard from everybody, every file is written, and the author does not have the last edit. -/
def lost (s : Fleet Bool) : Bool :=
  decide (∀ i j, i ≠ j → (i, j) ∈ s.heard) && s.last.any fun accepted =>
    (match s.content accepted.1 with
      | .truncated _ => false
      | .whole | .mixed => true) && decide (s.file accepted.1 ≠ accepted.2.2)

theorem lost_diverges {s : Fleet Bool} (gone : lost s = true) : ¬s.Converges := by
  simp only [lost, Bool.and_eq_true, decide_eq_true_eq, Option.any_eq_true] at gone
  obtain ⟨all, ⟨author, edit, store⟩, accepted, written, apart⟩ := gone
  intro converges
  refine apart (converges all author edit store accepted author fun task truncated => ?_).1
  simp only [truncated] at written
  cases written

/-- The removing node's clock is behind, and its save stamps a version below that of the
list it has taken over; or the clocks are right, and a push is written over a later save; or
two saves write over each other, and the file is read as an empty list. -/
theorem last_edit_undone :
    (∃ s : Fleet Bool, (fleetSystem fun s thread _ operation => s.Undisturbed thread operation ∧ s.Apart thread operation).Reaches Fleet.Fresh s ∧
      ¬s.Converges) ∧
    (∃ s : Fleet Bool, (fleetSystem fun s thread _ operation => s.Rising operation ∧ s.Apart thread operation).Reaches Fleet.Fresh s ∧
      ¬s.Converges) ∧
    ∃ s : Fleet Bool, (fleetSystem fun s thread _ operation => s.Rising operation ∧ s.Undisturbed thread operation).Reaches Fleet.Fresh s ∧
      ¬s.Converges := by
  refine ⟨?_, ?_, ?_⟩
  · obtain ⟨s, reached, gone⟩ := @conduct_reaches _ _ _ _ _ (fleetSystem fun s thread _ operation => s.Undisturbed thread operation ∧ s.Apart thread operation)
      (Fleet.serve fun s thread _ operation => undisturbed s thread operation && parted s thread operation) Fleet.Fresh
      (newFleet fun host => if host then 1000 else 2000) ⟨rfl, rfl, rfl, fun _ => rfl⟩
      (fleet_commits fun _ _ _ _ may => ⟨undisturbed_checked (Bool.and_eq_true_iff.mp may).1, parted_checked (Bool.and_eq_true_iff.mp may).2⟩)
      addedAndRemoved addedAndRemoved_lawful lost (by decide +kernel)
    exact ⟨s, reached, lost_diverges gone⟩
  · obtain ⟨s, reached, gone⟩ := @conduct_reaches _ _ _ _ _ (fleetSystem fun s thread _ operation => s.Rising operation ∧ s.Apart thread operation)
      (Fleet.serve fun s thread _ operation => rising s operation && parted s thread operation) Fleet.Fresh
      (newFleet fun host => if host then 3000 else 2000) ⟨rfl, rfl, rfl, fun _ => rfl⟩
      (fleet_commits fun _ _ _ _ may => ⟨rising_checked (Bool.and_eq_true_iff.mp may).1, parted_checked (Bool.and_eq_true_iff.mp may).2⟩)
      savedMeanwhile savedMeanwhile_lawful lost (by decide +kernel)
    exact ⟨s, reached, lost_diverges gone⟩
  · obtain ⟨s, reached, gone⟩ := @conduct_reaches _ _ _ _ _ (fleetSystem fun s thread _ operation => s.Rising operation ∧ s.Undisturbed thread operation)
      (Fleet.serve fun s thread _ operation => rising s operation && undisturbed s thread operation) Fleet.Fresh
      (newFleet fun _ => 2000) ⟨rfl, rfl, rfl, fun _ => rfl⟩
      (fleet_commits fun _ _ _ _ may => ⟨rising_checked (Bool.and_eq_true_iff.mp may).1, undisturbed_checked (Bool.and_eq_true_iff.mp may).2⟩)
      savedTogether savedTogether_lawful lost (by decide +kernel)
    exact ⟨s, reached, lost_diverges gone⟩

end Auth
