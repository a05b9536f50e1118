import WolfStack.Mcp.Calls
import WolfStack.Mcp.Upkeep

/-! What holds of the server after every step: a grant that was ended has left the memory for
good, and its copy in the file, if there is one, has expired. -/

namespace Mcp
open Effects
open Std (TreeMap)

def Scope.bars (username : String) : Scope → Bool
  | .user u => u = username
  | .all => true
  | .grant _ | .client _ => false

def Approved : List Event → String → Nat → Prop
  | [], _, _ => True
  | .revoked scope :: earlier, username, approval =>
    (scope.bars username = true → earlier.length < approval) ∧ Approved earlier username approval
  | _ :: earlier, username, approval => Approved earlier username approval

/-- What ends a grant. Whether the return of a retired token has to is for `detect` to say. -/
def closes (detect : Prop) (earlier : List Event) (id : String) : Event → Prop
  | .revoked scope => ∃ g approval, .created g approval ∈ earlier ∧ scope.covers g = true ∧ g.id = id
  | .presented h t => detect ∧ ∃ r, .rotated id h r ∈ earlier ∧ refreshRetryGraceSecs < t - r
  | _ => False

def Closed (detect : Prop) : List Event → String → Prop
  | [], _ => False
  | event :: earlier, id => closes detect earlier id event ∨ Closed detect earlier id

def Allowed (settle detect : Prop) (earlier : List Event) : Event → Prop
  | .used id => ¬Closed detect earlier id
  | .created g approval => (∀ other a, .created other a ∈ earlier → other.id ≠ g.id) ∧ .revoked (.client g.clientId) ∉ earlier ∧
    (settle → Approved earlier g.username approval)
  | .caught id h t => detect → ∀ r, .rotated id h r ∈ earlier → refreshRetryGraceSecs < t - r
  | _ => True

def Lawful (settle detect : Prop) : List Event → Prop
  | [] => True
  | event :: earlier => Allowed settle detect earlier event ∧ Lawful settle detect earlier

theorem approved_now (log : List Event) (username : String) {approval : Nat} (late : log.length ≤ approval) :
    Approved log username approval := by
  induction log with
  | nil => trivial
  | cons event earlier ih =>
    simp only [List.length_cons] at late
    have rest := ih (by omega)
    cases event with
    | revoked scope => exact ⟨fun _ => late, rest⟩
    | _ => exact rest

theorem approved_cons {event : Event} {log : List Event} {username : String} {approval : Nat} (approved : Approved log username approval)
    (bars : ∀ scope, event = .revoked scope → scope.bars username = false) : Approved (event :: log) username approval := by
  cases event with
  | revoked scope =>
    refine ⟨fun barred => ?_, approved⟩
    rw [bars scope rfl] at barred
    cases barred
  | _ => exact approved

variable {settle detect : Prop}

namespace OAuthStore

/-- Not in memory, and where it is still in the file, expired. -/
structure Gone (s : OAuthStore) (clock : Int) (id : String) : Prop where
  grants : s.inner.grants[id]? = none
  file : ∀ f ∈ s.file.grants, f.id = id → f.refreshExpiresAt ≤ clock

structure Ended (s : OAuthStore) (started clock : Int) (id : String) : Prop where
  grants : ∀ g, s.inner.grants[id]? = some g → g.refreshExpiresAt ≤ started
  file : ∀ f ∈ s.file.grants, f.id = id → f.refreshExpiresAt ≤ clock
  access : ∀ (h : String) a, s.inner.access[h]? = some a → a.grantId ≠ id

def Holds (s : OAuthStore) (id : String) (g : Grant) : Prop := s.inner.grants[id]? = some g ∨ (g ∈ s.file.grants ∧ g.id = id)

end OAuthStore

structure Recorded (log : List Event) (id : String) (g : Grant) : Prop where
  born : ∃ first approval, .created first approval ∈ log ∧ first.id = id ∧ first.username = g.username ∧ first.clientId = g.clientId
  current : ∀ other t, .rotated other g.refreshHash t ∉ log
  last : ∀ h, g.retiredRefreshHashes.getLast? = some h → .rotated id h g.lastRotatedAt ∈ log

structure Consistent (settle detect : Prop) (s : Server) : Prop where
  tidy : s.store.inner.Tidy s.owners
  clientKeys : ∀ (k : String) c, s.store.inner.clients[k]? = some c → c.clientId = k
  unique : ∀ f ∈ s.store.file.grants, ∀ other ∈ s.store.file.grants, f.id = other.id → f = other
  filed : ∀ f ∈ s.store.file.grants, (∃ g, s.store.inner.grants[f.id]? = some g ∧ g.refreshExpiresAt = f.refreshExpiresAt) ∨
    (s.store.inner.grants[f.id]? = none ∧ f.refreshExpiresAt ≤ s.clock)
  fileOwned : ∀ f ∈ s.store.file.grants, ∀ h ∈ f.refreshHash :: f.retiredRefreshHashes, s.owners h = some f.id
  started : s.started ≤ s.clock
  recorded : ∀ id g, s.store.Holds id g → Recorded s.log id g
  named : ∀ g approval, .created g approval ∈ s.log → g.id ∈ s.named
  ownersNamed : ∀ h id, s.owners h = some id → h ∈ s.named ∧ id ∈ s.named
  rotatedOwned : ∀ id h t, .rotated id h t ∈ s.log → s.owners h = some id
  rotatedOnce : ∀ id other h t u, .rotated id h t ∈ s.log → .rotated other h u ∈ s.log → t = u
  lawful : Lawful settle detect s.log
  ended : ∀ id, Closed detect s.log id → s.store.Ended s.started s.clock id
  barred : ∀ c, .revoked (.client c) ∈ s.log → c ∈ s.named ∧ s.store.inner.clients[c]? = none ∧ ∀ k ∈ s.store.file.clients, k.clientId ≠ c
  codes : ∀ (h : String) c, s.store.inner.codes[h]? = some c → h ∈ s.named ∧ (settle → Approved s.log c.username (s.approvals h))
  carried : settle → ∀ entry ∈ s.carried, Approved s.log entry.username entry.approval

/-- No grant in memory is one that was ended. -/
def Server.Clean (detect : Prop) (s : Server) : Prop := ∀ id, Closed detect s.log id → s.store.inner.grants[id]? = none

structure Promised (detect : Prop) (call : CallId) (before after : Server) : Prop where
  boot : after.boot = before.boot
  clock : after.clock = before.clock
  started : after.started = before.started
  clean : before.Clean detect → after.Clean detect
  holding : ∀ other, other ≠ call → after.holding other = before.holding other

theorem Promised.trans {call : CallId} {before middle after : Server} (first : Promised detect call before middle)
    (second : Promised detect call middle after) : Promised detect call before after where
  boot := second.boot.trans first.boot
  clock := second.clock.trans first.clock
  started := second.started.trans first.started
  clean held := second.clean (first.clean held)
  holding other apart := (second.holding other apart).trans (first.holding other apart)

structure Advance (settle detect : Prop) (call : CallId) (before after : Server) : Prop where
  valid : Consistent settle detect after
  promised : Promised detect call before after

theorem Advance.trans {call : CallId} {before middle after : Server} (first : Advance settle detect call before middle)
    (second : Advance settle detect call middle after) : Advance settle detect call before after :=
  ⟨second.valid, first.promised.trans second.promised⟩

namespace Consistent
variable {s : Server} {call : CallId}

theorem closed_named (valid : Consistent settle detect s) {log : List Event} (sub : ∀ event ∈ log, event ∈ s.log) {id : String}
    (closed : Closed detect log id) : id ∈ s.named := by
  induction log with
  | nil => exact closed.elim
  | cons event earlier ih =>
    rcases closed with here | before_
    · cases event with
      | revoked scope =>
        obtain ⟨g, approval, created, -, rfl⟩ := here
        exact valid.named g approval (sub _ (List.mem_cons_of_mem _ created))
      | presented h t =>
        obtain ⟨-, r, rotated, -⟩ := here
        exact (valid.ownersNamed h id (valid.rotatedOwned id h r (sub _ (List.mem_cons_of_mem _ rotated)))).2
      | _ => exact here.elim
    · exact ih (fun event there => sub event (List.mem_cons_of_mem _ there)) before_

theorem gone_ended {id : String} (valid : Consistent settle detect s) (gone : s.store.Gone s.clock id) : s.store.Ended s.started s.clock id where
  grants g found := by
    rw [gone.grants] at found
    cases found
  file := gone.file
  access h a found same := by
    obtain ⟨g, there⟩ := valid.tidy.access h a found
    rw [same, gone.grants] at there
    cases there

theorem gone (valid : Consistent settle detect s) {id : String} (lost : s.store.inner.grants[id]? = none) : s.store.Gone s.clock id := by
  refine ⟨lost, fun f member same => ?_⟩
  rcases valid.filed f member with ⟨g, there, -⟩ | ⟨-, past⟩
  · rw [same, lost] at there
    cases there
  · exact past

theorem naming (valid : Consistent settle detect s) (names : List String) :
    Advance settle detect call s { s with named := names ++ s.named } where
  valid := { valid with
    named := fun g approval created => List.mem_append_right _ (valid.named g approval created)
    ownersNamed := fun h id owner =>
      ⟨List.mem_append_right _ (valid.ownersNamed h id owner).1, List.mem_append_right _ (valid.ownersNamed h id owner).2⟩
    barred := fun c revoked => ⟨List.mem_append_right _ (valid.barred c revoked).1, (valid.barred c revoked).2⟩
    codes := fun h c found => ⟨List.mem_append_right _ (valid.codes h c found).1, (valid.codes h c found).2⟩ }
  promised := ⟨rfl, rfl, rfl, fun clean => clean, fun _ _ => rfl⟩

theorem holding_drop {other : CallId} (apart : other ≠ call) :
    (s.drop call).find? (fun entry => entry.call = other) = s.holding other := by
  rw [Server.drop, List.find?_filter, Server.holding]
  congr
  funext entry
  by_cases same : entry.call = other
  · simp [same, apart]
  · simp [same]

theorem dropping (valid : Consistent settle detect s) : Advance settle detect call s { s with carried := s.drop call } where
  valid := { valid with carried := fun settles entry there => valid.carried settles entry (List.mem_filter.mp there).1 }
  promised := ⟨rfl, rfl, rfl, fun clean => clean, fun _ apart => holding_drop apart⟩

theorem carrying (valid : Consistent settle detect s) {username : String} {approval : Nat}
    (approved : settle → Approved s.log username approval) :
    Advance settle detect call s { s with carried := ⟨call, username, approval⟩ :: s.drop call } := by
  refine ⟨{ valid with carried := fun settles entry there => ?_ }, ⟨rfl, rfl, rfl, fun clean => clean, fun other apart => ?_⟩⟩
  · rcases List.mem_cons.mp there with rfl | kept
    · exact approved settles
    · exact valid.carried settles entry (List.mem_filter.mp kept).1
  · rw [Server.holding, List.find?_cons_of_neg]
    · exact holding_drop apart
    · simpa using apart.symm

end Consistent

/-! ### Changes of the store -/

def Quiet (owners : String → Option String) (t : Int) (before after : OAuthStore) : Prop :=
  ∃ middle, Inner.Keeps (fun expiry => expiry ≤ t) before.inner middle ∧ middle.Tidy owners ∧
    (after = ⟨middle, before.file⟩ ∨
      (Inner.Keeps (fun _ => True) middle after.inner ∧ after.inner.Tidy owners ∧ after.file = after.inner.snapshot))

namespace Quiet
variable {owners : String → Option String} {t : Int} {before after : OAuthStore}

theorem keeps (quiet : Quiet owners t before after) : Inner.Keeps (fun _ => True) before.inner after.inner := by
  obtain ⟨middle, first, -, rfl | ⟨second, -, -⟩⟩ := quiet
  · exact first.weaken fun _ _ => trivial
  · exact (first.weaken fun _ _ => trivial).trans second

theorem tidy (quiet : Quiet owners t before after) : after.inner.Tidy owners := by
  obtain ⟨middle, -, tidy, rfl | ⟨-, last, -⟩⟩ := quiet
  · exact tidy
  · exact last

theorem held (quiet : Quiet owners t before after) {id : String} {g : Grant} (held : after.Holds id g) :
    ∃ old u, before.Holds id old ∧ g = { old with lastUsedAt := u } := by
  rcases held with live | ⟨member, rfl⟩
  · obtain ⟨old, u, there, same⟩ := quiet.keeps.grants id g live
    exact ⟨old, u, .inl there, same⟩
  · have kept := quiet.keeps
    have keyed := quiet.tidy.keyed
    obtain ⟨middle, -, -, rfl | ⟨-, -, written⟩⟩ := quiet
    · exact ⟨g, g.lastUsedAt, .inr ⟨member, rfl⟩, rfl⟩
    · rw [written] at member
      obtain ⟨k, found⟩ := Inner.mem_snapshot.mp member
      obtain ⟨old, u, there, same⟩ := kept.grants k g found
      exact ⟨old, u, .inl (keyed k g found ▸ there), same⟩

theorem filed (quiet : Quiet owners t before after) {clock : Int} (past : t ≤ clock)
    (filed : ∀ f ∈ before.file.grants, (∃ g, before.inner.grants[f.id]? = some g ∧ g.refreshExpiresAt = f.refreshExpiresAt) ∨
      (before.inner.grants[f.id]? = none ∧ f.refreshExpiresAt ≤ clock)) :
    ∀ f ∈ after.file.grants, (∃ g, after.inner.grants[f.id]? = some g ∧ g.refreshExpiresAt = f.refreshExpiresAt) ∨
      (after.inner.grants[f.id]? = none ∧ f.refreshExpiresAt ≤ clock) := by
  intro f member
  obtain ⟨middle, first, -, rfl | ⟨-, last, written⟩⟩ := quiet
  · cases now : middle.grants[f.id]? with
    | none =>
      refine .inr ⟨rfl, ?_⟩
      rcases filed f member with ⟨g, there, same⟩ | ⟨-, expired⟩
      · have dropped := first.dropped f.id g there now
        omega
      · exact expired
    | some g =>
      obtain ⟨old, u, there, rfl⟩ := first.grants f.id g now
      refine .inl ⟨_, rfl, ?_⟩
      rcases filed f member with ⟨g, here, same⟩ | ⟨none_, -⟩
      · rw [there] at here
        cases here
        exact same
      · rw [there] at none_
        cases none_
  · rw [written] at member
    obtain ⟨k, found⟩ := Inner.mem_snapshot.mp member
    exact .inl ⟨f, last.keyed k f found ▸ found, rfl⟩

theorem unique (quiet : Quiet owners t before after)
    (unique : ∀ f ∈ before.file.grants, ∀ other ∈ before.file.grants, f.id = other.id → f = other) :
    ∀ f ∈ after.file.grants, ∀ other ∈ after.file.grants, f.id = other.id → f = other := by
  obtain ⟨middle, -, -, rfl | ⟨-, last, written⟩⟩ := quiet
  · exact unique
  · rw [written]
    intro f member other there same
    obtain ⟨k, found⟩ := Inner.mem_snapshot.mp member
    obtain ⟨k', found'⟩ := Inner.mem_snapshot.mp there
    have key : k = k' := by rw [← last.keyed k f found, ← last.keyed k' other found', same]
    rw [← key, found] at found'
    exact Option.some.inj found'

theorem clients (quiet : Quiet owners t before after) {c : String} (keyed : ∀ (k : String) c, before.inner.clients[k]? = some c → c.clientId = k)
    (barred : before.inner.clients[c]? = none ∧ ∀ k ∈ before.file.clients, k.clientId ≠ c) :
    after.inner.clients[c]? = none ∧ ∀ k ∈ after.file.clients, k.clientId ≠ c := by
  have kept := quiet.keeps.clients
  have absent : ∀ (k : String) client, after.inner.clients[k]? = some client → client.clientId ≠ c := by
    intro k client found same
    obtain ⟨old, there, alike⟩ := kept k client found
    have key := keyed k old there
    rw [← key, alike, same, barred.1] at there
    cases there
  constructor
  · cases now : after.inner.clients[c]? with
    | none => rfl
    | some client =>
      obtain ⟨old, there, -⟩ := kept c client now
      rw [barred.1] at there
      cases there
  · obtain ⟨middle, -, -, rfl | ⟨-, -, written⟩⟩ := quiet
    · exact barred.2
    · rw [written]
      intro k member
      obtain ⟨key, found⟩ := Inner.mem_snapshot_clients.mp member
      exact absent key k found

end Quiet

theorem Recorded.later {log : List Event} {id : String} {g : Grant} {t : Int} (recorded : Recorded log id g) :
    Recorded log id { g with lastUsedAt := t } := ⟨recorded.born, recorded.current, recorded.last⟩

namespace Consistent
variable {s : Server} {call : CallId}

theorem quiet (valid : Consistent settle detect s) {t : Int} {store : OAuthStore} (past : t ≤ s.clock)
    (quiet : Quiet s.owners t s.store store) : Advance settle detect call s { s with store } where
  valid := { valid with
    tidy := quiet.tidy
    clientKeys := fun k c found => by
      obtain ⟨old, there, same⟩ := quiet.keeps.clients k c found
      rw [← same]
      exact valid.clientKeys k old there
    unique := quiet.unique valid.unique
    filed := quiet.filed past valid.filed
    fileOwned := fun f member h among => by
      obtain ⟨old, u, there, rfl⟩ := quiet.held (.inr ⟨member, rfl⟩)
      rcases there with live | ⟨filed, same⟩
      · exact valid.tidy.owned _ old live h among
      · exact valid.fileOwned old filed h among
    recorded := fun id g held => by
      obtain ⟨old, u, there, rfl⟩ := quiet.held held
      exact (valid.recorded id old there).later
    ended := fun id closed => by
      have ended := valid.ended id closed
      refine ⟨fun g found => ?_, fun f member same => ?_, fun h a found => ended.access h a (quiet.keeps.access h a found)⟩
      · obtain ⟨old, u, there, rfl⟩ := quiet.keeps.grants id g found
        exact ended.grants old there
      · obtain ⟨old, u, there, rfl⟩ := quiet.held (.inr ⟨member, rfl⟩)
        rcases there with live | ⟨filed, alike⟩
        · have early := ended.grants old (same ▸ live)
          exact Int.le_trans early valid.started
        · exact ended.file old filed same
    barred := fun c revoked => ⟨(valid.barred c revoked).1, quiet.clients valid.clientKeys (valid.barred c revoked).2⟩
    codes := fun h c found => valid.codes h c (quiet.keeps.codes h c found) }
  promised := by
    refine ⟨rfl, rfl, rfl, fun clean id closed => ?_, fun _ _ => rfl⟩
    cases now : store.inner.grants[id]? with
    | none => rfl
    | some g =>
      obtain ⟨old, u, there, -⟩ := quiet.keeps.grants id g now
      rw [clean id closed] at there
      cases there

theorem register (valid : Consistent settle detect s) {c : Client} (fresh : .revoked (.client c.clientId) ∉ s.log) :
    let draft := { s.store.inner with clients := s.store.inner.clients.insert c.clientId c }
    s.store.file = s.store.inner.snapshot →
    Advance settle detect call s { s with store := ⟨draft, draft.snapshot⟩ } := by
  intro draft written
  have clients : ∀ (k : String) client, draft.clients[k]? = some client →
      (client = c ∧ k = c.clientId) ∨ s.store.inner.clients[k]? = some client := by
    intro k client found
    rw [TreeMap.getElem?_insert] at found
    split at found
    · rename_i same
      cases found
      exact .inl ⟨rfl, (Std.LawfulEqCmp.compare_eq_iff_eq.mp same).symm⟩
    · exact .inr found
  have grants : draft.snapshot.grants = s.store.file.grants := by rw [written]; rfl
  have apart : ∀ id, .revoked (.client id) ∈ s.log → c.clientId ≠ id := fun id revoked same => fresh (same ▸ revoked)
  refine ⟨{ valid with
    tidy := valid.tidy.same rfl rfl fun _ _ found => found
    clientKeys := fun k client found => ?_
    unique := grants ▸ valid.unique
    filed := grants ▸ valid.filed
    fileOwned := grants ▸ valid.fileOwned
    recorded := fun id g held => ?_
    ended := fun id closed => ?_
    barred := fun id revoked => ?_ }, ⟨rfl, rfl, rfl, fun clean => clean, fun _ _ => rfl⟩⟩
  · rcases clients k client found with ⟨rfl, rfl⟩ | there
    · rfl
    · exact valid.clientKeys k client there
  · refine valid.recorded id g ?_
    rcases held with live | ⟨member, same⟩
    · exact .inl live
    · exact .inr ⟨grants ▸ member, same⟩
  · have ended := valid.ended id closed
    exact ⟨ended.grants, grants ▸ ended.file, ended.access⟩
  · obtain ⟨named, gone, -⟩ := valid.barred id revoked
    have absent : ∀ (k : String) client, draft.clients[k]? = some client → client.clientId ≠ id := by
      intro k client found same
      rcases clients k client found with ⟨rfl, rfl⟩ | there
      · exact apart id revoked same
      · rw [← valid.clientKeys k client there, same, gone] at there
        cases there
    refine ⟨named, ?_, fun k member => ?_⟩
    · cases now : draft.clients[id]? with
      | none => rfl
      | some client =>
        rcases clients id client now with ⟨-, same⟩ | there
        · exact absurd same.symm (apart id revoked)
        · rw [gone] at there
          cases there
    · obtain ⟨key, found⟩ := Inner.mem_snapshot_clients.mp member
      exact absent key k found

theorem issue (valid : Consistent settle detect s) {h : String} {c : AuthCode} (named : h ∈ s.named)
    (approved : settle → Approved s.log c.username (s.approvals h)) :
    Advance settle detect call s { s with store.inner.codes := s.store.inner.codes.insert h c } := by
  refine ⟨{ valid with
    tidy := valid.tidy.same rfl rfl fun _ _ found => found
    ended := fun id closed => ?_
    recorded := fun id g held => valid.recorded id g held
    codes := fun k code found => ?_ }, ⟨rfl, rfl, rfl, fun clean => clean, fun _ _ => rfl⟩⟩
  · have ended := valid.ended id closed
    exact ⟨ended.grants, ended.file, ended.access⟩
  · rw [TreeMap.getElem?_insert] at found
    split at found
    · rename_i same
      cases found
      obtain rfl := Std.LawfulEqCmp.compare_eq_iff_eq.mp same
      exact ⟨named, approved⟩
    · exact valid.codes k code found

theorem approving (valid : Consistent settle detect s) {h : String} (approval : Nat) (fresh : ∀ c, s.store.inner.codes[h]? ≠ some c) :
    Advance settle detect call s { s with approvals := Function.update s.approvals h approval } := by
  refine ⟨{ valid with codes := fun k c found => ?_ }, ⟨rfl, rfl, rfl, fun clean => clean, fun _ _ => rfl⟩⟩
  have apart : k ≠ h := fun same => fresh c (same ▸ found)
  simp only [Function.update_of_ne apart]
  exact valid.codes k c found

theorem logs (valid : Consistent settle detect s) (event : Event) (allowed : Allowed settle detect s.log event)
    (closed : ∀ id, closes detect s.log id event → s.store.Gone s.clock id)
    (bars : settle → ∀ scope, event = .revoked scope → (∀ (h : String) c, s.store.inner.codes[h]? = some c → scope.bars c.username = false) ∧
      ∀ entry ∈ s.carried, scope.bars entry.username = false)
    (client : ∀ c, event = .revoked (.client c) → c ∈ s.named ∧ s.store.inner.clients[c]? = none ∧ ∀ k ∈ s.store.file.clients, k.clientId ≠ c)
    (named : ∀ g approval, event = .created g approval → g.id ∈ s.named) (plain : ∀ id h t, event ≠ .rotated id h t) :
    Advance settle detect call s { s with log := event :: s.log } := by
  have rotation : ∀ id h t, .rotated id h t ∈ event :: s.log → .rotated id h t ∈ s.log := by
    intro id h t member
    rcases List.mem_cons.mp member with here | earlier
    · exact absurd here.symm (plain id h t)
    · exact earlier
  refine ⟨{ valid with
    recorded := fun id g held => ?_
    named := fun g approval created => ?_
    rotatedOwned := fun id h t member => valid.rotatedOwned id h t (rotation id h t member)
    rotatedOnce := fun id other h t u first second => valid.rotatedOnce id other h t u (rotation id h t first) (rotation other h u second)
    lawful := ⟨allowed, valid.lawful⟩
    ended := fun id here => ?_
    barred := fun c revoked => ?_
    codes := fun h c found => ⟨(valid.codes h c found).1, fun settles => ?_⟩
    carried := fun settles entry there => ?_ }, ⟨rfl, rfl, rfl, fun clean id here => ?_, fun _ _ => rfl⟩⟩
  · obtain ⟨⟨first, approval, created, same⟩, current, last⟩ := valid.recorded id g held
    refine ⟨⟨first, approval, List.mem_cons_of_mem _ created, same⟩, fun other t member => ?_, fun h final => ?_⟩
    · exact current other t (rotation other g.refreshHash t member)
    · exact List.mem_cons_of_mem _ (last h final)
  · rcases List.mem_cons.mp created with here | earlier
    · exact named g approval here.symm
    · exact valid.named g approval earlier
  · rcases here with closing | closed_
    · exact valid.gone_ended (closed id closing)
    · exact valid.ended id closed_
  · rcases List.mem_cons.mp revoked with here | earlier
    · exact client c here.symm
    · exact valid.barred c earlier
  · exact approved_cons ((valid.codes h c found).2 settles) fun scope same => (bars settles scope same).1 h c found
  · exact approved_cons (valid.carried settles entry there) fun scope same => (bars settles scope same).2 entry there
  · rcases here with closing | closed_
    · exact (closed id closing).grants
    · exact clean id closed_

theorem logs_plain (valid : Consistent settle detect s) (event : Event) (allowed : Allowed settle detect s.log event)
    (closed : ∀ id, ¬closes detect s.log id event) (revoked : ∀ scope, event ≠ .revoked scope)
    (created : ∀ g approval, event ≠ .created g approval) (rotated : ∀ id h t, event ≠ .rotated id h t) :
    Advance settle detect call s { s with log := event :: s.log } :=
  valid.logs event allowed (fun id closing => absurd closing (closed id)) (fun _ scope same => absurd same (revoked scope))
    (fun c same => absurd same (revoked (.client c))) (fun g approval same => absurd same (created g approval)) rotated

theorem owning (valid : Consistent settle detect s) {h id : String} (free : s.owners h = none) (hash : h ∈ s.named) (name : id ∈ s.named) :
    Advance settle detect call s { s with owners := Function.update s.owners h (some id) } := by
  have kept : ∀ k other, s.owners k = some other → Function.update s.owners h (some id) k = some other := by
    intro k other owner
    have apart : k ≠ h := by
      rintro rfl
      rw [free] at owner
      cases owner
    rw [Function.update_of_ne apart, owner]
  have tidy := valid.tidy
  refine ⟨{ valid with
    tidy := ⟨tidy.keyed, tidy.access, fun k g found j among => kept j k (tidy.owned k g found j among), tidy.retired⟩
    fileOwned := fun f member j among => kept j f.id (valid.fileOwned f member j among)
    ownersNamed := fun k other owner => ?_
    rotatedOwned := fun other j t rotated => kept j other (valid.rotatedOwned other j t rotated) },
    ⟨rfl, rfl, rfl, fun clean => clean, fun _ _ => rfl⟩⟩
  by_cases same : k = h
  · subst same
    simp only [Function.update_self, Option.some.injEq] at owner
    exact ⟨hash, owner ▸ name⟩
  · exact valid.ownersNamed k other (by simpa only [Function.update_of_ne same] using owner)

/-- What is logged where a grant is put into its place: nothing, or that the one there before is rotated. -/
def Renews (s : Server) (id : String) (events : List Event) : Prop :=
  events = [] ∨ ∃ old t, s.store.inner.grants[id]? = some old ∧ events = [.rotated id old.refreshHash t]

theorem Renews.older {id : String} {events : List Event} {event : Event} (renews : Renews s id events) (member : event ∈ events ++ s.log) :
    event ∈ s.log ∨ ∃ old t, s.store.inner.grants[id]? = some old ∧ event = .rotated id old.refreshHash t := by
  rcases renews with rfl | ⟨old, t, there, rfl⟩
  · exact .inl member
  · rcases List.mem_cons.mp member with rfl | earlier
    · exact .inr ⟨old, t, there, rfl⟩
    · exact .inl earlier

theorem Renews.closed {id other : String} {events : List Event} (renews : Renews s id events) (here : Closed detect (events ++ s.log) other) :
    Closed detect s.log other := by
  rcases renews with rfl | ⟨old, t, -, rfl⟩
  · exact here
  · exact here.resolve_left not_false

theorem Renews.approved {id username : String} {approval : Nat} {events : List Event} (renews : Renews s id events)
    (held : Approved s.log username approval) : Approved (events ++ s.log) username approval := by
  rcases renews with rfl | ⟨old, t, -, rfl⟩ <;> exact held

theorem Renews.lawful {id : String} {events : List Event} (renews : Renews s id events) (lawful : Lawful settle detect s.log) :
    Lawful settle detect (events ++ s.log) := by
  rcases renews with rfl | ⟨old, t, -, rfl⟩
  · exact lawful
  · exact ⟨trivial, lawful⟩

theorem renewed_recorded (valid : Consistent settle detect s) {id k : String} {other : Grant} {events : List Event}
    (renews : Renews s id events) (apart : k ≠ id) (there : s.store.inner.grants[k]? = some other) : Recorded (events ++ s.log) k other := by
  obtain ⟨⟨first, approval, created, same⟩, current, last⟩ := valid.recorded k other (.inl there)
  refine ⟨⟨first, approval, List.mem_append_right _ created, same⟩, fun _ t member => ?_, fun h final => List.mem_append_right _ (last h final)⟩
  rcases renews.older member with earlier | ⟨old, u, present, same⟩
  · exact current _ t earlier
  · have mine := valid.tidy.owned k other there other.refreshHash List.mem_cons_self
    have its := valid.tidy.owned id old present old.refreshHash List.mem_cons_self
    injection same with _ hash _
    rw [hash, its] at mine
    exact apart (Option.some.inj mine).symm

theorem renewed_owned (valid : Consistent settle detect s) {id other h : String} {t : Int} {events : List Event}
    (renews : Renews s id events) (rotated : .rotated other h t ∈ events ++ s.log) : s.owners h = some other := by
  rcases renews.older rotated with earlier | ⟨old, u, present, same⟩
  · exact valid.rotatedOwned other h t earlier
  · cases same
    exact valid.tidy.owned id old present _ List.mem_cons_self

/-- A token that is current has not been rotated, so none is rotated twice. -/
theorem renewed_once (valid : Consistent settle detect s) {id k other h : String} {t u : Int} {events : List Event}
    (renews : Renews s id events) (first : .rotated k h t ∈ events ++ s.log) (second : .rotated other h u ∈ events ++ s.log) : t = u := by
  rcases renews with rfl | ⟨old, x, present, rfl⟩
  · exact valid.rotatedOnce k other h t u first second
  · have never : ∀ other y, .rotated other old.refreshHash y ∉ s.log := fun other y => (valid.recorded id old (.inl present)).current other y
    rcases List.mem_cons.mp first with here | earlier
    · cases here
      rcases List.mem_cons.mp second with same | earlier
      · cases same
        rfl
      · exact absurd earlier (never other u)
    · rcases List.mem_cons.mp second with here | before_
      · cases here
        exact absurd earlier (never k t)
      · exact valid.rotatedOnce k other h t u earlier before_

theorem place (valid : Consistent settle detect s) {id : String} {g : Grant} {draft : Inner} (events : List Event)
    (grants : ∀ k : String, draft.grants[k]? = if k = id then some g else s.store.inner.grants[k]?) (tidy : draft.Tidy s.owners)
    (clients : draft.clients = s.store.inner.clients) (codes : draft.codes = s.store.inner.codes)
    (access : ∀ (h : String) a, draft.access[h]? = some a → s.store.inner.access[h]? = some a ∨ a.grantId = id)
    (live : ¬Closed detect s.log id) (recorded : Recorded (events ++ s.log) id g) (renews : Renews s id events) :
    Advance settle detect call s { s with store := ⟨draft, draft.snapshot⟩, log := events ++ s.log } := by
  have others : ∀ (k : String) other, draft.grants[k]? = some other →
      (k = id ∧ other = g) ∨ (k ≠ id ∧ s.store.inner.grants[k]? = some other) := by
    intro k other found
    rw [grants] at found
    split at found
    · rename_i same
      cases found
      exact .inl ⟨same, rfl⟩
    · rename_i apart
      exact .inr ⟨apart, found⟩
  have entry : ∀ f ∈ draft.snapshot.grants, draft.grants[f.id]? = some f := by
    intro f member
    obtain ⟨k, found⟩ := Inner.mem_snapshot.mp member
    exact tidy.keyed k f found ▸ found
  have traced : ∀ (k : String) other, draft.grants[k]? = some other → Recorded (events ++ s.log) k other := by
    intro k other found
    rcases others k other found with ⟨rfl, rfl⟩ | ⟨apart, there⟩
    · exact recorded
    · exact valid.renewed_recorded renews apart there
  refine ⟨{ valid with
    tidy := tidy
    clientKeys := clients ▸ valid.clientKeys
    unique := fun f member other there same => ?_
    filed := fun f member => .inl ⟨f, entry f member, rfl⟩
    fileOwned := fun f member h among => tidy.owned f.id f (entry f member) h among
    recorded := fun k other held => ?_
    named := fun g approval created => ?_
    rotatedOwned := fun _ _ _ rotated => valid.renewed_owned renews rotated
    rotatedOnce := fun _ _ _ _ _ first second => valid.renewed_once renews first second
    lawful := renews.lawful valid.lawful
    ended := fun other here => ?_
    barred := fun c revoked => ?_
    codes := fun h c found => ?_
    carried := fun settles entry there => renews.approved (valid.carried settles entry there) },
    ⟨rfl, rfl, rfl, fun clean other here => ?_, fun _ _ => rfl⟩⟩
  · have first := entry f member
    rw [same, entry other there] at first
    exact (Option.some.inj first).symm
  · rcases held with found | ⟨member, rfl⟩
    · exact traced k other found
    · exact traced other.id other (entry other member)
  · rcases renews.older created with earlier | ⟨_, _, _, impossible⟩
    · exact valid.named g approval earlier
    · cases impossible
  · have ended := valid.ended other (renews.closed here)
    have apart : other ≠ id := fun same => live (same ▸ renews.closed here)
    have back : ∀ k, draft.grants[other]? = some k → k.refreshExpiresAt ≤ s.started := by
      intro k found
      rcases others other k found with ⟨same, -⟩ | ⟨-, there⟩
      · exact absurd same apart
      · exact ended.grants k there
    refine ⟨back, fun f member same => ?_, fun h a found => ?_⟩
    · have early := back f (same ▸ entry f member)
      exact Int.le_trans early valid.started
    · rcases access h a found with there | mine
      · exact ended.access h a there
      · rw [mine]
        exact apart.symm
  · rcases renews.older revoked with earlier | ⟨_, _, _, impossible⟩
    · obtain ⟨name, gone, -⟩ := valid.barred c earlier
      refine ⟨name, by rw [clients, gone], fun k member same => ?_⟩
      obtain ⟨key, found⟩ := Inner.mem_snapshot_clients.mp member
      rw [clients] at found
      rw [← valid.clientKeys key k found, same, gone] at found
      cases found
    · cases impossible
  · rw [codes] at found
    exact ⟨(valid.codes h c found).1, fun settles => renews.approved ((valid.codes h c found).2 settles)⟩
  · have gone := clean other (renews.closed here)
    have apart : other ≠ id := fun same => live (same ▸ renews.closed here)
    rw [grants, if_neg apart]
    exact gone

end Consistent
end Mcp
