import Mathlib.Data.List.Perm.Subperm
import Mathlib.Data.List.Dedup
import Mathlib.Data.List.Forall2
import Mathlib.Data.List.Induction
import Mathlib.Logic.Function.Basic

/-! The detector of outbound scans, after `scan_detector.rs`. It counts by process numbers, which are given to other
processes when one has ended; beside the numbers stands here which process it was. -/

namespace Security

open scoped List

abbrev Pid := Nat

/-- An instant, in nanoseconds. -/
abbrev Instant := Nat

def seconds (n : Nat) : Nat := n * 1000000000

/-- A process as it is at some time, with its name as it is read. The identity is never given again. -/
structure Process where
  id : Nat
  comm : String
  uid : Nat
deriving DecidableEq, Repr

structure ScanDetectorConfig where
  enabled : Bool
  thresholdDestinations : Nat
  windowSeconds : Nat
  allowlistComms : List String
  allowlistUids : List Nat
  action : String
  detectRawSockets : Bool
  rawSocketMinSamples : Nat

def essentialSafetyComms : List String := [
  "pmxcfs", "corosync", "pve-firewall", "pve-ha-crm", "pve-ha-lrm", "pve-cluster", "spiceproxy", "pvescheduler", "pvefw-logger",
  "proxmox-backup", "proxmox-backup-proxy", "proxmox-backup-client", "vzdump", "lxc-start", "lxc-monitord", "lxc-attach", "lxcfs",
  "runc", "crun", "containerd-shim", "containerd-shim-runc-v2", "kata-runtime", "kata-agent", "qemu-kvm", "qemu-system-x86_64",
  "qemu-system-aarch64", "libvirtd", "virtqemud", "virtlogd", "virtlockd", "etcd", "consul", "pacemaker", "pacemakerd",
  "pacemaker-attrd", "pacemaker-execd", "pacemaker-fenced", "pacemaker-schedulerd", "crm_mon", "crmd", "kube-apiserver",
  "kube-controller", "kube-scheduler", "kubelet", "kube-proxy", "k3s", "k3s-agent", "k3s-server", "glusterd", "glusterfsd",
  "ganesha.nfsd", "ceph-osd", "ceph-mon", "ceph-mgr", "ceph-mds", "ceph-fuse", "moosefs-master", "mfsmaster", "zed", "zfs", "zpool",
  "mdadm", "multipathd", "iscsid", "iscsiadm", "nfsd", "rpc.mountd", "rpc.statd", "rpcbind", "smbd", "nmbd", "winbindd", "mariadbd",
  "mysqld", "mysqld_safe", "postgres", "postmaster", "mongod", "mongos", "redis-server", "redis-sentinel", "cassandra", "scylla",
  "influxd", "clickhouse-server", "garbd", "wsrep_sst_rsync", "wsrep_sst_xtrabackup", "postfix", "smtpd", "qmgr", "pickup", "exim4",
  "sendmail", "dovecot", "opensmtpd", "frr", "bgpd", "ospfd", "ospf6d", "zebra", "ripd", "isisd", "bird", "bird6", "openvpn",
  "strongswan", "charon", "pluto", "wg-quick", "keepalived", "vrrpd", "systemd", "init", "NetworkManager", "nm-applet",
  "systemd-networkd", "systemd-resolved", "systemd-udevd", "systemd-logind", "systemd-journald", "dbus-daemon", "dbus-broker", "polkitd",
  "accountsservice", "rsyslogd", "syslog-ng", "udevadm", "dnsmasq", "named", "unbound", "bind9", "kresd", "knot", "dhclient", "dhcpcd",
  "dhcpd", "dhcrelay", "chronyd", "ntpd"]

/-- The kernel cuts names to fifteen bytes. -/
def isEssentialSafetyComm (comm : String) : Bool :=
  essentialSafetyComms.any fun s => s = comm || (15 ≤ s.length && (s.toList.take 15 = comm.toList))

/-- A socket that is connecting: its inode, where to, and the process that opened it. -/
structure Row where
  inode : Nat
  dest : String
  opener : Nat
deriving DecidableEq, Repr

/-- A process whose open files have been listed, and the inodes of its sockets. -/
structure Visit where
  pid : Pid
  process : Nat
  inodes : List Nat
deriving DecidableEq, Repr

inductive Path where
  | synSent
  | rawPacketSocket
deriving DecidableEq, Repr

inductive Kind where
  | term
  | kill
deriving DecidableEq, Repr

/-- When a number is looked up: for the name, for the user, and for either signal. -/
inductive Look where
  | name
  | user
  | signal (kind : Kind)
deriving DecidableEq, Repr

/-- A turn of the loop. `order` has the numbers as the maps come to give them. -/
structure Round where
  now : Instant
  cfg : ScanDetectorConfig
  ourPid : Pid
  visits : List Visit
  syn : List Row
  raw : List Nat
  order : Path → List Pid
  met : Path → Look → Pid → Option Process

namespace Round
variable (r : Round)

def holder (inode : Nat) : Option Visit := r.visits.reverse.find? fun v => inode ∈ v.inodes

/-- `build_inode_pid_map`. -/
def inodeToPid (inode : Nat) : Option Pid := (r.holder inode).map Visit.pid

/-- `parse_syn_sent`, of the rows that are put to a process. -/
def synSent (pid : Pid) : List Row := r.syn.filter fun row => r.inodeToPid row.inode = some pid

def rawHolder (pid : Pid) : Option Nat := ((r.raw.filterMap r.holder).find? fun v => v.pid = pid).map Visit.process

end Round

structure Sample where
  time : Instant
  row : Row
deriving DecidableEq, Repr

/-- For each number: its samples, when it was last acted on, and the processes that it was found to be in consecutive
samples with a raw socket, of which only the count is kept. -/
structure Inner where
  samples : Pid → List Sample
  actioned : Pid → Option Instant
  rawHolders : Pid → List Nat

def Inner.default : Inner := ⟨fun _ => [], fun _ => none, fun _ => []⟩

structure Signal where
  path : Path
  kind : Kind
  pid : Pid
  reaches : Option Process
deriving DecidableEq, Repr

section
variable (inner : Inner) (r : Round)

/-- The samples with those of the round, as far as they are inside the window. -/
def entries (pid : Pid) : List Sample :=
  (inner.samples pid ++ (r.synSent pid).map (Sample.mk r.now)).filter fun s => r.now - s.time < seconds r.cfg.windowSeconds

def distinct (samples : List Sample) : List String := (samples.map fun s => s.row.dest).dedup

def recent (actioned : Pid → Option Instant) (pid : Pid) : Bool := (actioned pid).any fun time => r.now - time < seconds 300

/-- A number is spared for the name or the user that are read. -/
def spared (path : Path) (pid : Pid) : Bool :=
  let comm := ((r.met path .name pid).map Process.comm).getD "?"
  isEssentialSafetyComm comm || comm ∈ r.cfg.allowlistComms || ((r.met path .user pid).map Process.uid).getD 0 ∈ r.cfg.allowlistUids

/-- The signals of `take_action`. -/
def takeAction (path : Path) (pid : Pid) : List Signal :=
  if pid = 1 ∨ pid = r.ourPid then []
  else if r.cfg.action = "alert_only" then []
  else [⟨path, .term, pid, r.met path (.signal .term) pid⟩, ⟨path, .kill, pid, r.met path (.signal .kill) pid⟩]

/-- Whether the samples of a number are enough. It is looked at if it has any, be they too old now. -/
def crossed (pid : Pid) : Bool :=
  (inner.samples pid ≠ [] || r.synSent pid ≠ []) && r.cfg.thresholdDestinations ≤ (distinct (entries inner r pid)).length

def toAction : List Pid := (r.order .synSent).filter fun pid => crossed inner r pid && !recent r inner.actioned pid && !spared r .synSent pid

/-- `update_raw_holder_counts`. -/
def updateRawHolderCounts (pid : Pid) : List Nat :=
  match r.rawHolder pid with
  | some process => inner.rawHolders pid ++ [process]
  | none => []

def minSamples : Nat := max r.cfg.rawSocketMinSamples 1

/-- The second path, which goes by what the first has acted on, and by what it acts on itself. -/
def rawActions (actioned : Pid → Option Instant) : List Pid → List Signal × (Pid → Option Instant)
  | [] => ([], actioned)
  | pid :: rest =>
    if minSamples r ≤ (updateRawHolderCounts inner r pid).length && !recent r actioned pid && !spared r .rawPacketSocket pid then
      let (signals, actioned) := rawActions (Function.update actioned pid (some r.now)) rest
      (takeAction r .rawPacketSocket pid ++ signals, actioned)
    else rawActions actioned rest

def actionedFirst : Pid → Option Instant :=
  (toAction inner r).foldl (fun actioned pid => Function.update actioned pid (some r.now)) inner.actioned

/-- What is acted on stays known for an hour. -/
def tick : Inner × List Signal :=
  let (signals, actioned) :=
    if r.cfg.detectRawSockets then rawActions inner r (actionedFirst inner r) (r.order .rawPacketSocket) else ([], actionedFirst inner r)
  (⟨entries inner r,
      fun pid => (actioned pid).filter fun time => r.now - time < seconds 3600,
      if r.cfg.detectRawSockets then updateRawHolderCounts inner r else fun _ => []⟩,
    (toAction inner r).flatMap (takeAction r .synSent) ++ signals)

def turn : Inner × List Signal := if r.cfg.enabled then tick inner r else (inner, [])

end

def after (rounds : List Round) : Inner := rounds.foldl (fun inner r => (turn inner r).1) .default

def ticks (rounds : List Round) : List Round := rounds.filter fun r => r.cfg.enabled

def openedTo (rounds : List Round) (id : Nat) : List String :=
  (rounds.flatMap fun r => (r.syn.filter fun row => row.opener = id).map Row.dest).dedup

def Round.HoldsRaw (r : Round) (id : Nat) : Prop := ∃ inode ∈ r.raw, ∃ v ∈ r.visits, v.process = id ∧ inode ∈ v.inodes

/-- A process has itself opened sockets to enough destinations inside the window, or has itself held a raw socket in
enough consecutive samples. -/
def Guilty (done : List Round) (r : Round) (id : Nat) : Prop :=
  r.cfg.thresholdDestinations ≤
      (openedTo ((ticks done ++ [r]).filter fun r' => r.now - r'.now < seconds r.cfg.windowSeconds) id).length ∨
    ∃ before last, ticks done ++ [r] = before ++ last ∧ last.length = minSamples r ∧ ∀ r' ∈ last, r'.HoldsRaw id

def Protected (r : Round) (pid : Pid) (p : Process) : Prop :=
  isEssentialSafetyComm p.comm = true ∨ p.comm ∈ r.cfg.allowlistComms ∨ p.uid ∈ r.cfg.allowlistUids ∨ pid = 1 ∨ pid = r.ourPid

def OnlyScanners (rounds : List Round) : Prop :=
  ∀ done r, done ++ [r] <+: rounds → ∀ s ∈ (turn (after done) r).2, ∀ p, s.reaches = some p → Guilty done r p.id ∧ ¬Protected r s.pid p

/-- A number belongs to one process, of one name and user, from when its name is read until it has been killed or has
ended, and is not given to another by then. -/
structure Kept (r : Round) (path : Path) (pid : Pid) (p : Process) : Prop where
  same : ∀ look p', r.met path look pid = some p' → p' = p
  gone : ∀ kind, r.met path (.signal kind) pid ≠ none → r.met path .name pid ≠ none ∧ r.met path .user pid ≠ none

/-- A number whose process would be sent signals. -/
def Punishes (r : Round) (path : Path) (pid : Pid) : Prop :=
  r.cfg.action ≠ "alert_only" ∧ pid ≠ 1 ∧ pid ≠ r.ourPid ∧ spared r path pid = false

/-- Behind every number that is to be punished there is one process all along: the one that opened all the sockets
that are counted, or was found with a raw socket in each of the last samples. -/
structure Undisturbed (inner : Inner) (r : Round) : Prop where
  synSent : ∀ pid ∈ r.order .synSent, crossed inner r pid = true → recent r inner.actioned pid = false → Punishes r .synSent pid →
    ∃ p, (∀ s ∈ entries inner r pid, s.row.opener = p.id) ∧ Kept r .synSent pid p
  raw : r.cfg.detectRawSockets = true → ∀ pid ∈ r.order .rawPacketSocket, minSamples r ≤ (updateRawHolderCounts inner r pid).length →
    recent r (actionedFirst inner r) pid = false → Punishes r .rawPacketSocket pid →
    ∃ p, (∀ id ∈ (updateRawHolderCounts inner r pid).drop ((updateRawHolderCounts inner r pid).length - minSamples r), id = p.id) ∧
      Kept r .rawPacketSocket pid p

section
variable {done : List Round} {inner : Inner} {r : Round} {pid : Pid} {path : Path}

/-- Every sample is a row that was read, and every count stands for as many samples at the end. -/
structure Traced (done : List Round) (inner : Inner) : Prop where
  samples : ∀ pid, ∀ s ∈ inner.samples pid, ∃ r ∈ ticks done, r.now = s.time ∧ s.row ∈ r.syn
  raw : ∀ pid, ∃ before last, ticks done = before ++ last ∧ List.Forall₂ Round.HoldsRaw last (inner.rawHolders pid)

theorem ticks_concat (on : r.cfg.enabled = true) : ticks (done ++ [r]) = ticks done ++ [r] := by
  rw [ticks, List.filter_append, List.filter_cons, if_pos on]
  rfl

theorem rawHolder_holds {id : Nat} (found : r.rawHolder pid = some id) : r.HoldsRaw id := by
  obtain ⟨v, first, rfl⟩ := Option.map_eq_some_iff.mp found
  obtain ⟨inode, listed, holds⟩ := List.mem_filterMap.mp (List.mem_of_find?_eq_some first)
  have member := List.mem_reverse.mp (List.mem_of_find?_eq_some holds)
  exact ⟨inode, listed, v, member, rfl, by simpa using List.find?_some holds⟩

theorem entries_traced (traced : Traced done inner) : ∀ s ∈ entries inner r pid, ∃ r' ∈ ticks done ++ [r], r'.now = s.time ∧ s.row ∈ r'.syn ∧
    r.now - r'.now < seconds r.cfg.windowSeconds := by
  intro s member
  obtain ⟨known, fresh⟩ := List.mem_filter.mp member
  rcases List.mem_append.mp known with old | new
  · obtain ⟨r', among, time, row⟩ := traced.samples pid s old
    exact ⟨r', List.mem_append_left _ among, time, row, by rw [time]; exact of_decide_eq_true fresh⟩
  · obtain ⟨row, among, rfl⟩ := List.mem_map.mp new
    exact ⟨r, List.mem_append_right _ (List.mem_singleton_self _), rfl, (List.mem_filter.mp among).1, of_decide_eq_true fresh⟩

theorem counts_traced (traced : Traced done inner) :
    ∃ before last, ticks done ++ [r] = before ++ last ∧ List.Forall₂ Round.HoldsRaw last (updateRawHolderCounts inner r pid) := by
  rw [updateRawHolderCounts]
  split
  · rename_i id found
    obtain ⟨before, last, split_, holds⟩ := traced.raw pid
    refine ⟨before, last ++ [r], by rw [split_, List.append_assoc], ?_⟩
    exact List.rel_append holds (List.Forall₂.cons (rawHolder_holds found) .nil)
  · exact ⟨_, [], (List.append_nil _).symm, .nil⟩

theorem tick_traced (on : r.cfg.enabled = true) (traced : Traced done inner) : Traced (done ++ [r]) (tick inner r).1 where
  samples pid s member := by
    obtain ⟨r', among, time, row, -⟩ := entries_traced traced s member
    exact ⟨r', by rw [ticks_concat on]; exact among, time, row⟩
  raw pid := by
    rw [ticks_concat on]
    have counted := @counts_traced done inner r pid traced
    rw [tick]
    dsimp only
    split
    · exact counted
    · exact ⟨_, [], (List.append_nil _).symm, .nil⟩

theorem after_concat (done : List Round) (r : Round) : after (done ++ [r]) = (turn (after done) r).1 := by
  rw [after, List.foldl_append]
  rfl

theorem after_traced (done : List Round) : Traced done (after done) := by
  induction done using List.reverseRecOn with
  | nil => exact ⟨fun _ _ member => (List.not_mem_nil member).elim, fun _ => ⟨[], [], rfl, .nil⟩⟩
  | append_singleton done r traced =>
    rw [after_concat, turn]
    by_cases on : r.cfg.enabled = true
    · rw [if_pos on]
      exact tick_traced on traced
    · rw [if_neg on]
      have same : ticks (done ++ [r]) = ticks done := by
        rw [ticks, List.filter_append, List.filter_cons, if_neg on]
        exact List.append_nil _
      exact ⟨by rw [same]; exact traced.samples, by rw [same]; exact traced.raw⟩

theorem guilty_samples (traced : Traced done inner) {id : Nat} (crossed_ : crossed inner r pid = true)
    (mine : ∀ s ∈ entries inner r pid, s.row.opener = id) : Guilty done r id := by
  left
  have enough : r.cfg.thresholdDestinations ≤ (distinct (entries inner r pid)).length := by
    rw [crossed, Bool.and_eq_true] at crossed_
    exact of_decide_eq_true crossed_.2
  refine Nat.le_trans enough (List.Subperm.length_le ((List.nodup_dedup _).subperm fun dest member => ?_))
  obtain ⟨s, among, rfl⟩ := List.mem_map.mp (List.mem_dedup.mp member)
  obtain ⟨r', listed, -, row, fresh⟩ := entries_traced traced s among
  refine List.mem_dedup.mpr (List.mem_flatMap.mpr ⟨r', List.mem_filter.mpr ⟨listed, decide_eq_true fresh⟩, ?_⟩)
  exact List.mem_map.mpr ⟨s.row, List.mem_filter.mpr ⟨row, decide_eq_true (mine s among)⟩, rfl⟩

theorem paired {α β : Type} {R : α → β → Prop} {l₁ : List α} {l₂ : List β} (all : List.Forall₂ R l₁ l₂) {a : α} (member : a ∈ l₁) :
    ∃ b ∈ l₂, R a b := by
  induction all with
  | nil => exact absurd member List.not_mem_nil
  | cons first rest ih =>
    rcases List.mem_cons.mp member with rfl | later
    · exact ⟨_, List.mem_cons_self, first⟩
    · obtain ⟨b, among, found⟩ := ih later
      exact ⟨b, List.mem_cons_of_mem _ among, found⟩

theorem guilty_raw (traced : Traced done inner) {id : Nat} (enough : minSamples r ≤ (updateRawHolderCounts inner r pid).length)
    (mine : ∀ id' ∈ (updateRawHolderCounts inner r pid).drop ((updateRawHolderCounts inner r pid).length - minSamples r), id' = id) :
    Guilty done r id := by
  right
  obtain ⟨before, last, split_, holds⟩ := @counts_traced done inner r pid traced
  have same := holds.length_eq
  refine ⟨before ++ last.take (last.length - minSamples r), last.drop (last.length - minSamples r), ?_, ?_, ?_⟩
  · rw [split_, List.append_assoc, List.take_append_drop]
  · rw [List.length_drop]
    omega
  · intro r' member
    have lately := List.forall₂_drop (last.length - minSamples r) holds
    obtain ⟨id', counted, found⟩ := paired lately member
    rw [same] at counted
    exact mine id' counted ▸ found

theorem recent_update {actioned : Pid → Option Instant} {other : Pid}
    (idle : recent r (Function.update actioned other (some r.now)) pid = false) : recent r actioned pid = false := by
  by_cases same : pid = other
  · subst same
    have acted : recent r (Function.update actioned pid (some r.now)) pid = true := by
      rw [recent, Function.update_self, Option.any_some, Nat.sub_self]
      exact decide_eq_true (by decide)
    exact absurd (idle.symm.trans acted) Bool.false_ne_true
  · rwa [recent, Function.update_of_ne same] at idle

theorem of_takeAction {s : Signal} (sent : s ∈ takeAction r path pid) :
    r.cfg.action ≠ "alert_only" ∧ pid ≠ 1 ∧ pid ≠ r.ourPid ∧ s.path = path ∧ s.pid = pid ∧ s.reaches = r.met path (.signal s.kind) pid := by
  rw [takeAction] at sent
  split at sent
  · exact absurd sent List.not_mem_nil
  · rename_i other
    obtain ⟨notInit, notOurs⟩ := not_or.mp other
    split at sent
    · exact absurd sent List.not_mem_nil
    · rename_i armed
      rcases List.mem_pair.mp sent with rfl | rfl
      · exact ⟨armed, notInit, notOurs, rfl, rfl, rfl⟩
      · exact ⟨armed, notInit, notOurs, rfl, rfl, rfl⟩

theorem of_rawActions {s : Signal} : ∀ (pids : List Pid) (actioned : Pid → Option Instant), s ∈ (rawActions inner r actioned pids).1 →
    s.pid ∈ pids ∧ minSamples r ≤ (updateRawHolderCounts inner r s.pid).length ∧ recent r actioned s.pid = false ∧
      spared r .rawPacketSocket s.pid = false ∧ s ∈ takeAction r .rawPacketSocket s.pid := by
  intro pids
  induction pids with
  | nil => exact fun _ sent => absurd sent List.not_mem_nil
  | cons pid rest ih =>
    intro actioned sent
    rw [rawActions] at sent
    split at sent
    · rename_i acted
      simp only [Bool.and_eq_true, Bool.not_eq_true', decide_eq_true_eq] at acted
      rcases List.mem_append.mp sent with now | later
      · have own : s.pid = pid := (of_takeAction now).2.2.2.2.1
        rw [own]
        exact ⟨List.mem_cons_self, acted.1.1, acted.1.2, acted.2, now⟩
      · obtain ⟨among, enough, idle, known, sent⟩ := ih _ later
        exact ⟨List.mem_cons_of_mem _ among, enough, recent_update idle, known, sent⟩
    · obtain ⟨among, rest⟩ := ih _ sent
      exact ⟨List.mem_cons_of_mem _ among, rest⟩

theorem not_protected {p : Process} (kept : Kept r path pid p) (punished : Punishes r path pid) {kind : Kind} {p' : Process}
    (reached : r.met path (.signal kind) pid = some p') : p' = p ∧ ¬Protected r pid p := by
  refine ⟨kept.same _ _ reached, ?_⟩
  obtain ⟨named, owned⟩ := kept.gone kind (by rw [reached]; exact Option.some_ne_none _)
  obtain ⟨first, name⟩ := Option.ne_none_iff_exists'.mp named
  obtain ⟨second, user⟩ := Option.ne_none_iff_exists'.mp owned
  have nameOf := kept.same _ _ name
  have userOf := kept.same _ _ user
  subst nameOf userOf
  obtain ⟨-, notInit, notOurs, known⟩ := punished
  rw [spared, name, user] at known
  simp only [Option.map_some, Option.getD_some, Bool.or_eq_false_iff, decide_eq_false_iff_not] at known
  rintro (essential | listed | listed | init | ours)
  · exact absurd (known.1.1.symm.trans essential) Bool.false_ne_true
  · exact known.1.2 listed
  · exact known.2 listed
  · exact notInit init
  · exact notOurs ours

theorem tick_reaches (traced : Traced done inner) (undisturbed : Undisturbed inner r) {s : Signal} (sent : s ∈ (tick inner r).2) {p : Process}
    (reached : s.reaches = some p) : Guilty done r p.id ∧ ¬Protected r s.pid p := by
  rw [tick] at sent
  dsimp only at sent
  rcases List.mem_append.mp sent with syn | raw
  · obtain ⟨pid, acted, sent⟩ := List.mem_flatMap.mp syn
    obtain ⟨armed, notInit, notOurs, -, own, aim⟩ := of_takeAction sent
    obtain ⟨among, chosen⟩ := List.mem_filter.mp acted
    simp only [Bool.and_eq_true, Bool.not_eq_true'] at chosen
    have punished : Punishes r .synSent pid := ⟨armed, notInit, notOurs, chosen.2⟩
    obtain ⟨p', opened, kept⟩ := undisturbed.synSent pid among chosen.1.1 chosen.1.2 punished
    obtain ⟨rfl, free⟩ := not_protected kept punished (aim ▸ reached)
    rw [own]
    exact ⟨guilty_samples traced chosen.1.1 opened, free⟩
  · split at raw
    · rename_i detecting
      obtain ⟨among, enough, idle, known, sent⟩ := of_rawActions _ _ raw
      obtain ⟨armed, notInit, notOurs, -, -, aim⟩ := of_takeAction sent
      have punished : Punishes r .rawPacketSocket s.pid := ⟨armed, notInit, notOurs, known⟩
      obtain ⟨p', held, kept⟩ := undisturbed.raw detecting s.pid among enough idle punished
      obtain ⟨rfl, free⟩ := not_protected kept punished (aim ▸ reached)
      exact ⟨guilty_raw traced enough held, free⟩
    · exact absurd raw List.not_mem_nil

end

/-- Only scanners are reached in a run in which the numbers of those that are punished belong to them throughout. -/
theorem only_scanners_punished (rounds : List Round)
    (undisturbed : ∀ done r, done ++ [r] <+: rounds → r.cfg.enabled = true → Undisturbed (after done) r) : OnlyScanners rounds := by
  intro done r begun s sent p reached
  rw [turn] at sent
  split at sent
  · rename_i on
    exact tick_reaches (after_traced done) (undisturbed done r begun on) sent reached
  · exact absurd sent List.not_mem_nil

def scanner : Process := ⟨7, "zmapper", 1000⟩

def scan : Round where
  now := 0
  cfg := ⟨true, 3, 60, [], [], "kill_and_block", true, 2⟩
  ourPid := 900
  visits := [⟨700, 7, [41, 42, 43]⟩]
  syn := [⟨41, "203.0.113.1", 7⟩, ⟨42, "203.0.113.2", 7⟩, ⟨43, "203.0.113.3", 7⟩]
  raw := []
  order := fun path => match path with
    | .synSent => [700]
    | .rawPacketSocket => []
  met := fun _ _ pid => if pid = 700 then some scanner else none

def sniffer : Process := ⟨9, "rawcap", 1001⟩

/-- Beside the scanner, which ends on TERM, a node of the cluster connects to three peers, and a
process has a raw socket. -/
def firstTick : Round where
  now := 0
  cfg := scan.cfg
  ourPid := 900
  visits := [⟨500, 5, [31, 32, 33]⟩, ⟨700, 7, [41, 42, 43]⟩, ⟨800, 9, [60]⟩]
  syn := [⟨31, "10.0.0.2", 5⟩, ⟨32, "10.0.0.3", 5⟩, ⟨33, "10.0.0.4", 5⟩] ++ scan.syn
  raw := [60]
  order := fun path => match path with
    | .synSent => [500, 700]
    | .rawPacketSocket => [800]
  met := fun _ look pid =>
    if pid = 500 then some ⟨5, "corosync", 0⟩ else if pid = 700 ∧ look ≠ .signal .kill then some scanner
    else if pid = 800 then some sniffer else none

/-- Half a minute later the scanner's number is another process's, and the raw socket still there. -/
def secondTick : Round := { firstTick with
  now := seconds 30
  visits := [⟨500, 5, [31]⟩, ⟨700, 11, [71]⟩, ⟨800, 9, [60]⟩]
  syn := [⟨71, "198.51.100.9", 11⟩]
  met := fun _ _ pid =>
    if pid = 500 then some ⟨5, "corosync", 0⟩ else if pid = 700 then some ⟨11, "nginx", 33⟩ else if pid = 800 then some sniffer else none }

theorem firstTick_undisturbed : Undisturbed (after []) firstTick where
  synSent pid among _ _ punished := by
    rcases List.mem_pair.mp among with rfl | rfl
    · exact absurd punished.2.2.2 (by decide +kernel)
    · refine ⟨scanner, by decide +kernel, fun look p' met => ?_, fun kind _ => ⟨Option.some_ne_none _, Option.some_ne_none _⟩⟩
      cases look with
      | name | user => exact (Option.some.inj met).symm
      | signal kind =>
        cases kind with
        | term => exact (Option.some.inj met).symm
        | kill => cases met
  raw _ pid among enough := by
    obtain rfl := List.mem_singleton.mp among
    exact absurd enough (by decide +kernel)

theorem secondTick_undisturbed : Undisturbed (after [firstTick]) secondTick where
  synSent pid among _ quiet punished := by
    rcases List.mem_pair.mp among with rfl | rfl
    · exact absurd punished.2.2.2 (by decide +kernel)
    · exact absurd quiet (by decide +kernel)
  raw _ pid among _ _ _ := by
    obtain rfl := List.mem_singleton.mp among
    exact ⟨sniffer, by decide +kernel, fun _ _ met => (Option.some.inj met).symm,
      fun _ _ => ⟨Option.some_ne_none _, Option.some_ne_none _⟩⟩

theorem only_scanners_punished_sample : OnlyScanners [firstTick, secondTick] ∧
    ((turn (after []) firstTick).2 ++ (turn (after [firstTick]) secondTick).2).map Signal.reaches =
      [some scanner, none, some sniffer, some sniffer] := by
  refine ⟨only_scanners_punished [firstTick, secondTick] fun done r begun _ => ?_, by decide +kernel⟩
  obtain ⟨more, split⟩ := begun
  rcases done with _ | ⟨first, _ | ⟨second, done⟩⟩
  · obtain rfl := (List.cons.inj split).1
    exact firstTick_undisturbed
  · obtain ⟨rfl, rest⟩ := List.cons.inj split
    obtain rfl := (List.cons.inj rest).1
    exact secondTick_undisturbed
  · exact absurd (congrArg List.length split) (by simp)

/-- While the detector waits for two seconds, the scanner ends and its number is given to the cluster engine. -/
def pause : Round := { scan with
  met := fun _ look pid =>
    if pid = 700 then if look = .signal .kill then some ⟨8, "corosync", 0⟩ else some scanner else none }

theorem kill_after_pause : ¬OnlyScanners [pause] := by
  intro only
  have sent : (⟨.synSent, .kill, 700, some ⟨8, "corosync", 0⟩⟩ : Signal) ∈ (turn (after []) pause).2 := by decide +kernel
  exact (only [] pause List.prefix_rfl _ sent _ rfl).2 (.inl (by decide +kernel))

end Security
