import WolfStack.Predictive.Tick
import Mathlib.Data.List.Dedup
import Mathlib.Data.List.Sort
import Mathlib.Data.String.Basic
import Mathlib.Algebra.Order.Ring.Rat

/-! The scanner of packages for known vulnerabilities, after `predictive/osv.rs`: what it asks OSV, what it keeps of
the answers, and what it says of a host and its containers. -/

open scoped List

namespace Predictive

structure InventoryEntry where
  ecosystem : String
  name : String
  version : String
deriving DecidableEq, Repr

inductive ScanTarget where
  | host
  | lxc (name : String)
deriving DecidableEq, Repr

def ScanTarget.resourceId : ScanTarget → String
  | .host => "osv:host"
  | .lxc name => "osv:lxc:" ++ name

inductive ParentDistro where
  | ubuntu
  | debian
deriving DecidableEq, Repr

inductive EcosystemResolution where
  | mapped (ecosystem : String)
  | unrecognizedDerivative (id : String) (parent : ParentDistro) (codenameHint : Option String)
  | unsupported (id : String)
  | unknown
deriving DecidableEq, Repr

structure RunningKernel where
  package : String
  version : String
deriving DecidableEq, Repr

structure Inventory where
  target : ScanTarget
  entries : List InventoryEntry
  resolution : EcosystemResolution
  runningKernel : Option RunningKernel
  kernelUnidentified : Option String
deriving DecidableEq, Repr

def Inventory.ecosystem (inv : Inventory) : Option String :=
  match inv.resolution with
  | .mapped s => some s
  | _ => none

/-- The running kernel, to be asked for even if no package of the list is it. -/
def Inventory.kernelEntry (inv : Inventory) : Option InventoryEntry :=
  match inv.runningKernel, inv.ecosystem with
  | some rk, some eco => some ⟨eco, rk.package, rk.version⟩
  | _, _ => none

def Inventory.packages (inv : Inventory) : List InventoryEntry := inv.entries ++ inv.kernelEntry.toList

/-- A record, with what a finding is decided by. The score is a double, compared with whole numbers. -/
structure OsvVuln where
  id : String
  aliases : List String
  cvssScore : Option ℚ
  fixedVersions : List (String × String)
deriving DecidableEq

structure OsvCache where
  lastFullScanAt : Option Time
  vulns : List (String × OsvVuln)
  matches_ : List (String × List String)

def matchKey (e : InventoryEntry) : String := e.ecosystem ++ "|" ++ e.name ++ "|" ++ e.version

def OsvCache.ids (cache : OsvCache) (e : InventoryEntry) : List String := (cache.matches_.lookup (matchKey e)).getD []

/-- A cache with what OSV has answered when it was made: for each package that it was asked for, the ids
of its vulnerabilities. -/
structure Answered where
  cache : OsvCache
  answers : List (InventoryEntry × List String)
  told : ∀ a ∈ answers, cache.ids a.1 = a.2

structure OsvConfig where
  enabled : Bool
  kevOnly : Bool
  severityFloor : Severity
  suppressNoFix : Bool

/-- What a call of the sampler meets: the inventories it collects, the clock and the latch, whether the HTTP
clients are built, what OSV answers, and the catalogue of exploited vulnerabilities that it ends up with. -/
structure Surroundings where
  inventories : List Inventory
  now : Time
  latch : Option Time
  scanClient : Bool
  kevClient : Bool
  post : List InventoryEntry → Except String (List (List String))
  fetch : String → Except String OsvVuln
  kev : List String

def osvMaxBatch : Nat := 500

def osvQueryCooldown : Int := 60 * 60

/-- `chunks`, with the number of them that there can be at most. -/
def chunksWithin {α : Type} (size : Nat) : Nat → List α → List (List α)
  | 0, _ => []
  | _ + 1, [] => []
  | n + 1, items => items.take size :: chunksWithin size n (items.drop size)

def chunks {α : Type} (size : Nat) (items : List α) : List (List α) := chunksWithin size items.length items

/-- `BTreeMap::entry(..).or_insert(..)`, of entries by their keys. -/
def orInsert (wanted : List InventoryEntry) (e : InventoryEntry) : List InventoryEntry :=
  if wanted.any (fun w => matchKey w = matchKey e) = true then wanted
  else wanted.orderedInsert (fun a b => matchKey a ≤ matchKey b) e

variable (config : OsvConfig) (out : Surroundings) (prior : Answered)

def queries : List InventoryEntry := (out.inventories.flatMap Inventory.packages).foldl orInsert []

def queryChunks : List (List InventoryEntry) → Except String (List (List String))
  | [] => .ok []
  | chunk :: rest =>
    match out.post chunk with
    | .error e => .error e
    | .ok results =>
      if results.length ≠ chunk.length then
        .error ("OSV batch result count mismatch: got " ++ toString results.length ++ " for " ++ toString chunk.length ++ " queries")
      else
        match queryChunks rest with
        | .error e => .error e
        | .ok more => .ok (results ++ more)

def osvQueryBatch (inv : List InventoryEntry) : Except String (List (List String)) := queryChunks out (chunks osvMaxBatch inv)

/-- The cache that is made of the answers. Records that cannot be fetched are left out. -/
def tabulate (answers : List (InventoryEntry × List String)) : OsvCache where
  lastFullScanAt := some out.now
  vulns := (answers.flatMap fun a => a.2).dedup.filterMap fun id =>
    match out.fetch id with
    | .ok v => some (id, v)
    | .error _ => none
  matches_ := answers.filterMap fun a => if a.2 = [] then none else some (matchKey a.1, a.2)

theorem lookup_tabulated {answers : List (InventoryEntry × List String)} (distinct : (answers.map fun a => matchKey a.1).Nodup)
    {a : InventoryEntry × List String} (member : a ∈ answers) : (tabulate out answers).ids a.1 = a.2 := by
  have absent : ∀ rest : List (InventoryEntry × List String), matchKey a.1 ∉ rest.map (fun b => matchKey b.1) →
      (rest.filterMap fun b => if b.2 = [] then none else some (matchKey b.1, b.2)).lookup (matchKey a.1) = none := by
    intro rest apart
    rw [List.lookup_eq_none_iff]
    intro entry kept
    obtain ⟨b, among, made⟩ := List.mem_filterMap.mp kept
    split at made
    · cases made
    · cases made
      simpa using fun same : matchKey a.1 = matchKey b.1 => apart (List.mem_map.mpr ⟨b, among, same.symm⟩)
  rw [OsvCache.ids, tabulate]
  induction answers with
  | nil => cases member
  | cons b rest ih =>
    obtain ⟨apart, others⟩ := List.nodup_cons.mp distinct
    rcases List.mem_cons.mp member with rfl | later
    · rw [List.filterMap_cons]
      by_cases none_ : a.2 = []
      · simp [none_, absent rest apart]
      · simp [none_]
    · have other : matchKey a.1 ≠ matchKey b.1 := fun same => apart (List.mem_map.mpr ⟨a, later, same⟩)
      have found := ih others later
      rw [List.filterMap_cons]
      by_cases none_ : b.2 = []
      · simp only [none_, if_true]
        exact found
      · simp only [none_, if_false, List.lookup_cons, beq_false_of_ne other]
        exact found

theorem orInsert_distinct {wanted : List InventoryEntry} (distinct : (wanted.map matchKey).Nodup) (e : InventoryEntry) :
    ((orInsert wanted e).map matchKey).Nodup := by
  rw [orInsert]
  split
  · exact distinct
  · rename_i new
    rw [((List.perm_orderedInsert _ e wanted).map matchKey).nodup_iff, List.map_cons, List.nodup_cons]
    refine ⟨fun known => new ?_, distinct⟩
    obtain ⟨w, member, same⟩ := List.mem_map.mp known
    exact List.any_eq_true.mpr ⟨w, member, decide_eq_true same⟩

theorem queries_distinct : ((queries out).map matchKey).Nodup := by
  have all : ∀ (items wanted : List InventoryEntry), (wanted.map matchKey).Nodup → ((items.foldl orInsert wanted).map matchKey).Nodup := by
    intro items
    induction items with
    | nil => exact fun _ distinct => distinct
    | cons e rest ih => exact fun wanted distinct => ih _ (orInsert_distinct distinct e)
  exact all _ _ List.nodup_nil

theorem zip_fst_sublist {α β : Type} (left : List α) (right : List β) : ((left.zip right).map Prod.fst) <+ left := by
  induction left generalizing right with
  | nil => exact List.nil_sublist _
  | cons a rest ih =>
    cases right with
    | nil => exact List.nil_sublist _
    | cons b more => exact (ih more).cons_cons a

theorem zip_distinct (batch : List (List String)) : (((queries out).zip batch).map fun a => matchKey a.1).Nodup := by
  have first : ((queries out).zip batch).map (fun a => matchKey a.1) = (((queries out).zip batch).map Prod.fst).map matchKey := by
    rw [List.map_map]
    rfl
  rw [first]
  exact (queries_distinct out).sublist ((zip_fst_sublist _ batch).map matchKey)

def scanOsv : Except String Answered :=
  if out.scanClient = false then .error "could not build HTTP client"
  else if queries out = [] then .ok ⟨⟨some out.now, [], []⟩, [], fun _ member => nomatch member⟩
  else
    match osvQueryBatch out (queries out) with
    | .error e => .error e
    | .ok batch => .ok ⟨tabulate out ((queries out).zip batch), (queries out).zip batch, fun _ member => lookup_tabulated out (zip_distinct out batch) member⟩

structure OsvFinding where
  target : ScanTarget
  ecosystem : String
  package : String
  version : String
  vuln : OsvVuln
  kevListed : Bool
  fixAvailable : Bool
deriving DecidableEq

/-- `suppressedNoFix` has the target of each finding that is kept back. -/
structure OsvFacts where
  findings : List OsvFinding
  coveredTargets : List ScanTarget
  unrecognizedDerivatives : List (ScanTarget × String × ParentDistro × Option String)
  kernelUnidentified : List (ScanTarget × String)
  suppressedNoFix : List ScanTarget

def withinCooldown (now : Time) (last : Option Time) : Bool := last.any fun t => now - t < osvQueryCooldown

def mustRefresh : Bool := !withinCooldown out.now (prior.cache.lastFullScanAt.or out.latch) || prior.cache.matches_.isEmpty

def used : Answered :=
  if mustRefresh out prior = true then
    match scanOsv out with
    | .ok fresh => fresh
    | .error _ => prior
  else prior

/-- The CVE ids of a record. -/
def OsvVuln.cveIds (vuln : OsvVuln) : List String := (vuln.aliases ++ [vuln.id]).filter fun s => "CVE-".toList.isPrefixOf s.toList

def criticalPackages : List String := [
  "linux-image", "linux-headers", "linux-generic", "linux-modules", "kernel", "kernel-core", "kernel-modules", "kernel-headers",
  "kernel-default", "kernel-default-devel", "linux", "linux-lts", "linux-zen", "linux-hardened", "openssh-server", "openssh-client",
  "openssh", "openssh-sftp-server", "openssh-clients", "openssl", "libssl", "libssl1.1", "libssl3", "openssl-libs", "libopenssl",
  "sudo", "libc6", "glibc", "glibc-common", "musl", "bash", "systemd", "libsystemd0", "systemd-libs", "bind9", "bind", "named",
  "bind-utils", "nginx", "apache2", "httpd", "haproxy", "curl", "libcurl", "runc", "containerd", "containerd.io", "docker",
  "docker-ce", "docker-engine", "qemu", "qemu-system", "libvirt", "libvirt-daemon"]

def isCriticalPackage (pkg : String) : Bool := criticalPackages.any fun c => pkg = c || (c ++ "-").toList.isPrefixOf pkg.toList

def severityFor (finding : OsvFinding) : Severity :=
  if finding.kevListed = true then .critical
  else if isCriticalPackage finding.package = true then .critical
  else
    match finding.vuln.cvssScore with
    | some s => if 9 ≤ s then .critical else if 7 ≤ s then .high else if 4 ≤ s then .warn else .info
    | none => .warn

def isKernel (name : String) : Bool :=
  "linux-image-".toList.isPrefixOf name.toList || name ∈ ["kernel", "kernel-default", "linux-lts", "linux"]

def deduped (seenKernel : Bool) : List InventoryEntry → List InventoryEntry
  | [] => []
  | e :: rest =>
    if isKernel e.name = true then
      if seenKernel = true then deduped seenKernel rest else e :: deduped true rest
    else e :: deduped seenKernel rest

def findingOf (target : ScanTarget) (e : InventoryEntry) (vuln : OsvVuln) : OsvFinding where
  target := target
  ecosystem := e.ecosystem
  package := e.name
  version := e.version
  vuln := vuln
  kevListed := vuln.cveIds.any fun c => c ∈ out.kev
  fixAvailable := vuln.fixedVersions.any fun v => v.1 = e.name

def awaitsFix (finding : OsvFinding) : Bool :=
  config.suppressNoFix && !finding.fixAvailable && !finding.kevListed && severityFor finding ≠ .critical

/-- The findings of a target before those that wait for a fix are kept back. -/
def candidates (cache : OsvCache) (inv : Inventory) : List OsvFinding :=
  (deduped false inv.entries).flatMap fun e =>
    ((cache.ids e).filterMap fun vid => cache.vulns.lookup vid).filterMap fun vuln =>
      let finding := findingOf out inv.target e vuln
      if (config.kevOnly && !finding.kevListed) = true then none else some finding

def sampleNow : OsvFacts :=
  if config.enabled = false then ⟨[], [], [], [], []⟩
  else
    let facts : OsvFacts := {
      findings := []
      coveredTargets := (out.inventories.filter fun inv => !inv.entries.isEmpty).map fun inv => inv.target
      unrecognizedDerivatives := out.inventories.filterMap fun inv =>
        match inv.resolution with
        | .unrecognizedDerivative id parent codenameHint => some (inv.target, id, parent, codenameHint)
        | _ => none
      kernelUnidentified := out.inventories.filterMap fun inv => inv.kernelUnidentified.map fun release => (inv.target, release)
      suppressedNoFix := [] }
    if out.kevClient = false then facts
    else
      let all := out.inventories.flatMap (candidates config out (used out prior).cache)
      { facts with
        findings := all.filter fun f => !awaitsFix config f
        suppressedNoFix := (all.filter (awaitsFix config)).map fun f => f.target }

def osvFindingType : String := "osv_vulnerability_detected"

def Severity.rank : Severity → Nat
  | .critical => 0
  | .high => 1
  | .warn => 2
  | .info => 3

def shouldEmit (finding : OsvFinding) : Bool :=
  if config.kevOnly = true then finding.kevListed
  else if finding.kevListed = true then true
  else if severityFor finding = .info then false
  else (severityFor finding).rank ≤ config.severityFloor.rank

def cardKey (nodeId : String) (target : ScanTarget) : Key := (osvFindingType, ⟨nodeId, some target.resourceId⟩)

/-- The targets' cards among what `analyze` reports. -/
def emittedCards (nodeId : String) (acks : AckStore) (store : ProposalStore) (now : Time) (facts : OsvFacts) : List Key :=
  if config.enabled = false then []
  else ((facts.findings.filter (shouldEmit config)).map fun f => cardKey nodeId f.target).dedup.filter fun key =>
    !acks.suppresses now key.1 key.2 && !store.isSuppressed now key.1 key.2

def coveredCards (nodeId : String) (facts : OsvFacts) : List Key := facts.coveredTargets.map (cardKey nodeId)

/-! ### What OSV is asked for -/

/-- A scan is due, and the answer to each batch of queries comes and has their number. -/
def ScansThrough : Prop :=
  mustRefresh out prior = true ∧ out.scanClient = true ∧
    ∀ chunk ∈ chunks osvMaxBatch (queries out), ∃ results, out.post chunk = .ok results ∧ results.length = chunk.length

/-- The scan of this call goes through and no package before has the same key, or there is no such scan and the
cache was made of an answer on the package. -/
structure AskedFor (e : InventoryEntry) : Prop where
  fresh : ScansThrough out prior → (out.inventories.flatMap Inventory.packages).find? (fun p => matchKey p = matchKey e) = some e
  kept : ¬ScansThrough out prior → ∃ refs, (e, refs) ∈ prior.answers

section
variable {out prior} {e : InventoryEntry}

theorem mem_orInsert {wanted : List InventoryEntry} {p : InventoryEntry} :
    e ∈ orInsert wanted p ↔ e ∈ wanted ∨ (e = p ∧ ∀ w ∈ wanted, matchKey w ≠ matchKey p) := by
  rw [orInsert]
  split
  · rename_i known
    obtain ⟨w, member, same⟩ := List.any_eq_true.mp known
    exact ⟨.inl, fun either => either.elim id fun new => absurd (of_decide_eq_true same) (new.2 w member)⟩
  · rename_i new
    have apart : ∀ w ∈ wanted, matchKey w ≠ matchKey p := fun w member same =>
      new (List.any_eq_true.mpr ⟨w, member, decide_eq_true same⟩)
    rw [List.mem_orderedInsert, or_comm]
    exact or_congr_right ⟨fun same => ⟨same, apart⟩, fun both => both.1⟩

theorem mem_foldl_orInsert {items wanted : List InventoryEntry} : e ∈ items.foldl orInsert wanted ↔
    e ∈ wanted ∨ ((∀ w ∈ wanted, matchKey w ≠ matchKey e) ∧ items.find? (fun p => matchKey p = matchKey e) = some e) := by
  induction items generalizing wanted with
  | nil => simp
  | cons p rest ih =>
    rw [List.foldl_cons, ih, mem_orInsert, List.find?_cons]
    by_cases same : matchKey p = matchKey e
    · simp only [same, decide_true]
      constructor
      · rintro ((known | ⟨rfl, new⟩) | ⟨apart, -⟩)
        · exact .inl known
        · exact .inr ⟨new, rfl⟩
        · by_cases new : ∀ w ∈ wanted, matchKey w ≠ matchKey p
          · exact absurd same (apart p (mem_orInsert.mpr (.inr ⟨rfl, new⟩)))
          · push Not at new
            obtain ⟨w, member, as⟩ := new
            exact absurd (as.trans same) (apart w (mem_orInsert.mpr (.inl member)))
      · rintro (known | ⟨new, first⟩)
        · exact .inl (.inl known)
        · exact .inl (.inr ⟨(Option.some.inj first).symm, new⟩)
    · simp only [same, decide_false]
      have other : e ≠ p := by
        rintro rfl
        exact same rfl
      have apart : (∀ w ∈ orInsert wanted p, matchKey w ≠ matchKey e) ↔ ∀ w ∈ wanted, matchKey w ≠ matchKey e := by
        refine ⟨fun all w member => all w (mem_orInsert.mpr (.inl member)), fun all w member => ?_⟩
        rcases mem_orInsert.mp member with known | ⟨rfl, -⟩
        · exact all w known
        · exact same
      rw [apart]
      simp [other]

theorem mem_queries : e ∈ queries out ↔
    (out.inventories.flatMap Inventory.packages).find? (fun p => matchKey p = matchKey e) = some e := by
  rw [queries, mem_foldl_orInsert]
  simp

theorem flatten_chunksWithin {α : Type} {size n : Nat} (some_ : 0 < size) {items : List α} (enough : items.length ≤ n) :
    (chunksWithin size n items).flatten = items := by
  induction n generalizing items with
  | zero => rw [List.eq_nil_of_length_eq_zero (Nat.le_zero.mp enough), chunksWithin, List.flatten_nil]
  | succ n ih =>
    cases items with
    | nil => rfl
    | cons a rest =>
      have shorter : ((a :: rest).drop size).length ≤ n := by
        rw [List.length_drop]
        omega
      rw [chunksWithin, List.flatten_cons, ih shorter, List.take_append_drop]
      exact List.cons_ne_nil a rest

theorem queryChunks_ok {batches : List (List InventoryEntry)} {batch : List (List String)}
    (answered : queryChunks out batches = .ok batch) :
    (∀ chunk ∈ batches, ∃ results, out.post chunk = .ok results ∧ results.length = chunk.length) ∧
      batch.length = batches.flatten.length := by
  induction batches generalizing batch with
  | nil =>
    cases answered
    exact ⟨by simp, rfl⟩
  | cons chunk rest ih =>
    rw [queryChunks] at answered
    cases posted : out.post chunk with
    | error e => simp [posted] at answered
    | ok results =>
      simp only [posted] at answered
      split at answered
      · cases answered
      · rename_i counted
        have counted := not_ne_iff.mp counted
        cases others : queryChunks out rest with
        | error e => simp [others] at answered
        | ok more =>
          simp only [others, Except.ok.injEq] at answered
          subst batch
          obtain ⟨each, total⟩ := ih others
          refine ⟨List.forall_mem_cons.mpr ⟨⟨results, posted, counted⟩, each⟩, ?_⟩
          rw [List.length_append, List.flatten_cons, List.length_append, counted, total]

theorem queryChunks_goes {batches : List (List InventoryEntry)}
    (each : ∀ chunk ∈ batches, ∃ results, out.post chunk = .ok results ∧ results.length = chunk.length) :
    ∃ batch, queryChunks out batches = .ok batch := by
  induction batches with
  | nil => exact ⟨[], rfl⟩
  | cons chunk rest ih =>
    obtain ⟨results, posted, counted⟩ := each chunk List.mem_cons_self
    obtain ⟨more, others⟩ := ih fun other member => each other (List.mem_cons_of_mem _ member)
    refine ⟨results ++ more, ?_⟩
    rw [queryChunks, posted]
    simp only [others]
    rw [if_neg (not_ne_iff.mpr counted)]

theorem exists_zip {α β : Type} {left : List α} {right : List β} (long : right.length = left.length) {a : α} :
    (∃ b, (a, b) ∈ left.zip right) ↔ a ∈ left := by
  have firsts : a ∈ (left.zip right).map Prod.fst ↔ a ∈ left := by rw [List.map_fst_zip (Nat.le_of_eq long.symm)]
  rw [← firsts, List.mem_map]
  simp

/-- A scan that goes through has an answer to each query and to nothing else. -/
theorem scanned_asks {data : Answered} (scanned : scanOsv out = .ok data) :
    (∃ refs, (e, refs) ∈ data.answers) ↔ e ∈ queries out := by
  rw [scanOsv] at scanned
  split at scanned
  · cases scanned
  · split at scanned
    · rename_i nothing
      cases scanned
      simp [nothing]
    · cases answered : osvQueryBatch out (queries out) with
      | error e => simp [answered] at scanned
      | ok batch =>
        simp only [answered, Except.ok.injEq] at scanned
        have counted := (queryChunks_ok answered).2
        rw [chunks, flatten_chunksWithin (by decide) (Nat.le_refl _)] at counted
        rw [← scanned]
        exact exists_zip counted

theorem scanOsv_ok : (∃ data, scanOsv out = .ok data) ↔ out.scanClient = true ∧
    ∀ chunk ∈ chunks osvMaxBatch (queries out), ∃ results, out.post chunk = .ok results ∧ results.length = chunk.length := by
  rw [scanOsv]
  cases client : out.scanClient with
  | false => simp
  | true =>
    simp only [Bool.true_eq_false, if_false, true_and]
    split
    · rename_i nothing
      rw [nothing]
      refine ⟨fun _ chunk member => ?_, fun _ => ⟨_, rfl⟩⟩
      cases member
    · cases answered : osvQueryBatch out (queries out) with
      | error e =>
        refine ⟨fun scanned => by simp at scanned, fun each => ?_⟩
        obtain ⟨batch, goes⟩ := queryChunks_goes each
        exact absurd (answered.symm.trans goes) (by simp)
      | ok batch => exact ⟨fun _ => (queryChunks_ok answered).1, fun _ => ⟨_, rfl⟩⟩

theorem answered_iff : (∃ refs, (e, refs) ∈ (used out prior).answers) ↔ AskedFor out prior e := by
  by_cases through : ScansThrough out prior
  · obtain ⟨due, goes⟩ := through
    obtain ⟨data, scanned⟩ := scanOsv_ok.mpr goes
    rw [used, if_pos due, scanned]
    simp only [scanned_asks scanned, mem_queries]
    exact ⟨fun first => ⟨fun _ => first, fun not => absurd ⟨due, goes⟩ not⟩, fun asked => asked.fresh ⟨due, goes⟩⟩
  · have same : used out prior = prior := by
      rw [used]
      split
      · rename_i due
        cases scanned : scanOsv out with
        | error e => rfl
        | ok data => exact absurd ⟨due, scanOsv_ok.mp ⟨data, scanned⟩⟩ through
      · rfl
    rw [same]
    exact ⟨fun kept => ⟨fun goes => absurd goes through, fun _ => kept⟩, fun asked => asked.kept through⟩

end

/-! ### What is cleared -/

def Found (facts : OsvFacts) (target : ScanTarget) (e : InventoryEntry) : Prop :=
  ∃ f ∈ facts.findings, f.target = target ∧ f.ecosystem = e.ecosystem ∧ f.package = e.name ∧ f.version = e.version

/-- OSV has been asked for just this package and version, and has nothing on it. -/
def Answered.Clean (data : Answered) (e : InventoryEntry) : Prop := (e, []) ∈ data.answers

/-- Every package of a covered target has a finding, or a clean answer. -/
def ReportsAll : Prop :=
  ∀ inv ∈ out.inventories, inv.target ∈ (sampleNow config out prior).coveredTargets → ∀ e ∈ inv.packages,
    Found (sampleNow config out prior) inv.target e ∨ (used out prior).Clean e

variable (nodeId : String) (acks : AckStore) (store : ProposalStore) (now : Time)

/-- `auto_resolve_cleared` closes the waiting card of a target only when all its packages have a clean answer. -/
def RetiresRightly : Prop :=
  ∀ inv ∈ out.inventories, ∀ p ∈ store, p.isPending = true → p.dedupKey = cardKey nodeId inv.target →
    ProposalStore.cleared (coveredCards nodeId (sampleNow config out prior))
      (emittedCards config nodeId acks store now (sampleNow config out prior)) p = some .conditionCleared →
    ∀ e ∈ inv.packages, (used out prior).Clean e

/-- A record of a package that is gone through, and that the configuration does not keep back. -/
structure Surfaces (target : ScanTarget) (e : InventoryEntry) (vuln : OsvVuln) : Prop where
  client : out.kevClient = true
  listed : ∃ inv ∈ out.inventories, inv.target = target ∧ e ∈ deduped false inv.entries
  fetched : ∃ vid ∈ (used out prior).cache.ids e, (used out prior).cache.vulns.lookup vid = some vuln
  exploited : config.kevOnly = true → (findingOf out target e vuln).kevListed = true
  fixable : awaitsFix config (findingOf out target e vuln) = false

def Covered (target : ScanTarget) : Prop := config.enabled = true ∧ ∃ inv ∈ out.inventories, inv.target = target ∧ inv.entries ≠ []

/-- Of every package of a covered target: if the cache has a match for it, a record of it surfaces; if it has
none, it is asked for. Where there is a match on a target whose card waits, there is a record which the
floor of severities lets through, and neither an acknowledgement nor a decision hides the card. -/
structure Looked : Prop where
  matched : ∀ inv ∈ out.inventories, Covered config out inv.target → ∀ e ∈ inv.packages, (used out prior).cache.ids e ≠ [] →
    ∃ vuln, Surfaces config out prior inv.target e vuln
  asked : ∀ inv ∈ out.inventories, Covered config out inv.target → ∀ e ∈ inv.packages, (used out prior).cache.ids e = [] →
    AskedFor out prior e
  carded : ∀ inv ∈ out.inventories, Covered config out inv.target → (∃ e ∈ inv.packages, (used out prior).cache.ids e ≠ []) →
    ∀ p ∈ store, p.isPending = true → p.dedupKey = cardKey nodeId inv.target →
    (∃ e vuln, Surfaces config out prior inv.target e vuln ∧ shouldEmit config (findingOf out inv.target e vuln) = true) ∧
      acks.suppresses now osvFindingType ⟨nodeId, some inv.target.resourceId⟩ = false ∧
      store.isSuppressed now osvFindingType ⟨nodeId, some inv.target.resourceId⟩ = false

section
variable {config out prior nodeId acks store now} {target : ScanTarget} {e : InventoryEntry} {f : OsvFinding}

theorem mem_coveredTargets : target ∈ (sampleNow config out prior).coveredTargets ↔ Covered config out target := by
  rw [sampleNow, Covered]
  cases config.enabled with
  | false => simp
  | true =>
    simp only [Bool.true_eq_false, if_false, true_and]
    have named : target ∈ (out.inventories.filter fun inv => !inv.entries.isEmpty).map (fun inv => inv.target) ↔
        ∃ inv ∈ out.inventories, inv.target = target ∧ inv.entries ≠ [] := by
      simp only [List.mem_map, List.mem_filter, Bool.not_eq_true', List.isEmpty_eq_false_iff]
      exact ⟨fun ⟨inv, ⟨member, some_⟩, same⟩ => ⟨inv, member, same, some_⟩, fun ⟨inv, member, same, some_⟩ => ⟨inv, ⟨member, some_⟩, same⟩⟩
    split
    · exact named
    · exact named

theorem mem_candidates {cache : OsvCache} {inv : Inventory} : f ∈ candidates config out cache inv ↔
    ∃ e ∈ deduped false inv.entries, ∃ vid ∈ cache.ids e, ∃ vuln, cache.vulns.lookup vid = some vuln ∧
      (config.kevOnly = true → (findingOf out inv.target e vuln).kevListed = true) ∧ findingOf out inv.target e vuln = f := by
  rw [candidates, List.mem_flatMap]
  constructor
  · rintro ⟨e, listed, member⟩
    obtain ⟨vuln, fetched, made⟩ := List.mem_filterMap.mp member
    obtain ⟨vid, among, found⟩ := List.mem_filterMap.mp fetched
    dsimp only at made
    split at made
    · cases made
    · rename_i shown
      refine ⟨e, listed, vid, among, vuln, found, ?_, Option.some.inj made⟩
      simpa using shown
  · rintro ⟨e, listed, vid, among, vuln, found, exploited, made⟩
    refine ⟨e, listed, List.mem_filterMap.mpr ⟨vuln, List.mem_filterMap.mpr ⟨vid, among, found⟩, ?_⟩⟩
    dsimp only
    rw [if_neg (by simpa using exploited), made]

theorem mem_findings : f ∈ (sampleNow config out prior).findings ↔
    config.enabled = true ∧ ∃ e vuln, Surfaces config out prior f.target e vuln ∧ findingOf out f.target e vuln = f := by
  rw [sampleNow]
  cases config.enabled with
  | false => simp
  | true =>
    simp only [Bool.true_eq_false, if_false, true_and]
    cases client : out.kevClient with
    | false =>
      simp only [if_true, List.not_mem_nil, false_iff]
      rintro ⟨e, vuln, surfaces, -⟩
      exact Bool.false_ne_true (client.symm.trans surfaces.client)
    | true =>
      simp only [Bool.true_eq_false, if_false, List.mem_filter, List.mem_flatMap, Bool.not_eq_true']
      constructor
      · rintro ⟨⟨inv, member, candidate⟩, fixable⟩
        obtain ⟨e, listed, vid, among, vuln, found, exploited, rfl⟩ := mem_candidates.mp candidate
        exact ⟨e, vuln, ⟨client, ⟨inv, member, rfl, listed⟩, ⟨vid, among, found⟩, exploited, fixable⟩, rfl⟩
      · rintro ⟨e, vuln, surfaces, made⟩
        obtain ⟨inv, member, same, listed⟩ := surfaces.listed
        obtain ⟨vid, among, found⟩ := surfaces.fetched
        have exploited := surfaces.exploited
        have fixable := surfaces.fixable
        rw [made] at fixable
        rw [← same] at made exploited
        exact ⟨⟨inv, member, mem_candidates.mpr ⟨e, listed, vid, among, vuln, found, exploited, made⟩⟩, fixable⟩

theorem found_iff : Found (sampleNow config out prior) target e ↔ config.enabled = true ∧ ∃ vuln, Surfaces config out prior target e vuln := by
  constructor
  · rintro ⟨f, member, rfl, ecosystem, package, version⟩
    obtain ⟨enabled, e', vuln, surfaces, made⟩ := mem_findings.mp member
    have same : e' = e := by
      cases e'
      cases e
      rw [InventoryEntry.mk.injEq]
      exact ⟨(congrArg OsvFinding.ecosystem made).trans ecosystem, (congrArg OsvFinding.package made).trans package,
        (congrArg OsvFinding.version made).trans version⟩
    rw [same] at surfaces
    exact ⟨enabled, vuln, surfaces⟩
  · rintro ⟨enabled, vuln, surfaces⟩
    exact ⟨findingOf out target e vuln, mem_findings.mpr ⟨enabled, e, vuln, surfaces, rfl⟩, rfl, rfl, rfl, rfl⟩

theorem clean_iff (data : Answered) : data.Clean e ↔ data.cache.ids e = [] ∧ ∃ refs, (e, refs) ∈ data.answers := by
  constructor
  · intro clean
    have told : data.cache.ids e = [] := data.told (e, []) clean
    exact ⟨told, [], clean⟩
  · rintro ⟨nothing, refs, asked⟩
    have told : data.cache.ids e = refs := data.told (e, refs) asked
    rw [nothing] at told
    rw [Answered.Clean, told]
    exact asked

theorem resourceId_inj {a b : ScanTarget} (same : a.resourceId = b.resourceId) : a = b := by
  have letters := congrArg String.toList same
  cases a with
  | host =>
    cases b with
    | host => rfl
    | lxc b =>
      rw [ScanTarget.resourceId, ScanTarget.resourceId, String.toList_append] at letters
      cases letters
  | lxc a =>
    rw [ScanTarget.resourceId, String.toList_append] at letters
    cases b with
    | host => cases letters
    | lxc b =>
      rw [ScanTarget.resourceId, String.toList_append] at letters
      rw [String.toList_inj.mp (List.append_cancel_left letters)]

theorem mem_coveredCards : cardKey nodeId target ∈ coveredCards nodeId (sampleNow config out prior) ↔ Covered config out target := by
  rw [← @mem_coveredTargets config out prior target, coveredCards, List.mem_map]
  constructor
  · rintro ⟨other, member, same⟩
    have ids : some other.resourceId = some target.resourceId := congrArg (fun key : Key => key.2.resourceId) same
    rw [← resourceId_inj (Option.some.inj ids)]
    exact member
  · exact fun member => ⟨target, member, rfl⟩

theorem mem_emittedCards :
    cardKey nodeId target ∈ emittedCards config nodeId acks store now (sampleNow config out prior) ↔
      config.enabled = true ∧
        (∃ e vuln, Surfaces config out prior target e vuln ∧ shouldEmit config (findingOf out target e vuln) = true) ∧
        acks.suppresses now osvFindingType ⟨nodeId, some target.resourceId⟩ = false ∧
        store.isSuppressed now osvFindingType ⟨nodeId, some target.resourceId⟩ = false := by
  have visible : (∃ f ∈ (sampleNow config out prior).findings.filter (shouldEmit config), cardKey nodeId f.target = cardKey nodeId target) ↔
      config.enabled = true ∧ ∃ e vuln, Surfaces config out prior target e vuln ∧ shouldEmit config (findingOf out target e vuln) = true := by
    constructor
    · rintro ⟨f, kept, same⟩
      obtain ⟨member, emitted⟩ := List.mem_filter.mp kept
      obtain ⟨enabled, e, vuln, surfaces, made⟩ := mem_findings.mp member
      have ids : some f.target.resourceId = some target.resourceId := congrArg (fun key : Key => key.2.resourceId) same
      rw [← made] at emitted
      rw [← resourceId_inj (Option.some.inj ids)]
      exact ⟨enabled, e, vuln, surfaces, emitted⟩
    · rintro ⟨enabled, e, vuln, surfaces, emitted⟩
      exact ⟨findingOf out target e vuln, List.mem_filter.mpr ⟨mem_findings.mpr ⟨enabled, e, vuln, surfaces, rfl⟩, emitted⟩, rfl⟩
  rw [emittedCards]
  by_cases enabled : config.enabled = true
  · rw [if_neg (by simp [enabled]), List.mem_filter, List.mem_dedup, List.mem_map, visible, Bool.and_eq_true, Bool.not_eq_true', Bool.not_eq_true']
    simp only [enabled, true_and]
    exact Iff.rfl
  · rw [if_pos (by simpa using enabled)]
    simp [enabled]

end

/-- A target's packages all have a finding or a clean answer, and its card is cleared only on clean answers, just
when the cache in use was asked for each and what it has of it surfaces. -/
theorem cleared_only_by_a_look :
    (ReportsAll config out prior ∧ RetiresRightly config out prior nodeId acks store now) ↔
      Looked config out prior nodeId acks store now := by
  constructor
  · rintro ⟨reports, retires⟩
    refine ⟨?_, ?_, ?_⟩
    · intro inv member covered e package matched
      rcases reports inv member (mem_coveredTargets.mpr covered) e package with found | clean
      · exact (found_iff.mp found).2
      · exact absurd ((clean_iff _).mp clean).1 matched
    · intro inv member covered e package nothing
      rcases reports inv member (mem_coveredTargets.mpr covered) e package with found | clean
      · obtain ⟨vuln, surfaces⟩ := (found_iff.mp found).2
        obtain ⟨vid, among, -⟩ := surfaces.fetched
        rw [nothing] at among
        cases among
      · exact answered_iff.mp ((clean_iff _).mp clean).2
    · rintro inv member covered ⟨e, package, matched⟩ p there waits card
      by_contra unseen
      have closed : ProposalStore.cleared (coveredCards nodeId (sampleNow config out prior))
          (emittedCards config nodeId acks store now (sampleNow config out prior)) p = some .conditionCleared := by
        rw [ProposalStore.cleared, card]
        exact if_pos ⟨mem_coveredCards.mpr covered, fun emitted => unseen (mem_emittedCards.mp emitted).2⟩
      exact matched ((clean_iff _).mp (retires inv member p there waits card closed e package)).1
  · intro looked
    constructor
    · intro inv member covered e package
      rw [mem_coveredTargets] at covered
      by_cases nothing : (used out prior).cache.ids e = []
      · exact .inr ((clean_iff _).mpr ⟨nothing, answered_iff.mpr (looked.asked inv member covered e package nothing)⟩)
      · exact .inl (found_iff.mpr ⟨covered.1, looked.matched inv member covered e package nothing⟩)
    · intro inv member p there waits card closed e package
      rw [ProposalStore.cleared, card] at closed
      split at closed
      · rename_i both
        have covered := mem_coveredCards.mp both.1
        by_cases nothing : (used out prior).cache.ids e = []
        · exact (clean_iff _).mpr ⟨nothing, answered_iff.mpr (looked.asked inv member covered e package nothing)⟩
        · exact absurd (mem_emittedCards.mpr ⟨covered.1, looked.carded inv member covered ⟨e, package, nothing⟩ p there waits card⟩) both.2
      · cases closed

def upgraded : Inventory := ⟨.host, [⟨"Debian:12", "openssl", "3.0.2"⟩], .mapped "Debian:12", none, none⟩

def tenMinutesLater : Surroundings where
  inventories := [upgraded]
  now := 600
  latch := some 0
  scanClient := true
  kevClient := true
  post chunk := .ok (chunk.map fun _ => ["DSA-2"])
  fetch id := .ok ⟨id, ["CVE-2026-2"], some 9, [("openssl", "3.0.3")]⟩
  kev := []

def scannedBefore : Answered where
  cache := ⟨some 0, [("DSA-1", ⟨"DSA-1", ["CVE-2026-1"], some 9, [("openssl", "3.0.2")]⟩)], [("Debian:12|openssl|3.0.1", ["DSA-1"])]⟩
  answers := [(⟨"Debian:12", "openssl", "3.0.1"⟩, ["DSA-1"])]
  told a member := by
    obtain rfl := List.mem_singleton.mp member
    decide +kernel

def defaultConfig : OsvConfig := ⟨true, false, .high, true⟩

def hostCard : Proposal := newRule "p1" 0 ⟨osvFindingType, .critical, "", "", [], .manual "" [], ⟨"n1", some "osv:host"⟩⟩

/-- The new version is vulnerable too, but within the hour OSV is not asked for it: the host is covered without
a finding, and its card is cleared. -/
theorem upgrade_clears :
    ¬(ReportsAll defaultConfig tenMinutesLater scannedBefore ∧
      RetiresRightly defaultConfig tenMinutesLater scannedBefore "n1" [] [hostCard] 600) := by
  rintro ⟨reports, -⟩
  have nothing : (sampleNow defaultConfig tenMinutesLater scannedBefore).findings = [] := by decide +kernel
  rcases reports upgraded List.mem_cons_self (by decide +kernel) ⟨"Debian:12", "openssl", "3.0.2"⟩ List.mem_cons_self with
    ⟨f, member, -⟩ | clean
  · rw [nothing] at member
    cases member
  · exact absurd clean (by rw [Answered.Clean]; decide +kernel)

end Predictive
