import WolfStack.SecretRotation.Node

/-! A commit that is rolled back. The secret file goes back to its newest backup, the
stores stay under the secret their own pass left them with. -/

namespace SecretRotation
open Auth

theorem byName_pairwise (backups : List (String × String)) :
    (byName backups).Pairwise fun first second => decide (first.1 ≤ second.1) = true := by
  apply List.pairwise_mergeSort
  · intro first second third earlier later
    rw [decide_eq_true_eq] at earlier later ⊢
    exact String.le_trans earlier later
  · intro first second
    rw [Bool.or_eq_true, decide_eq_true_eq, decide_eq_true_eq]
    exact String.le_total first.1 second.1

theorem newestBackup_pruneOldBackups (listable : Bool) (stuck : String → Bool) (backups : List (String × String)) :
    newestBackup (pruneOldBackups listable stuck backups) = newestBackup backups := by
  rw [pruneOldBackups]
  split
  · rfl
  · rename_i many
    simp only [Bool.or_eq_true, Bool.not_eq_true', decide_eq_true_eq, not_or, not_le] at many
    have length : (byName backups).length = backups.length := List.length_mergeSort backups
    set sorted := byName backups with named
    have kept : ((sorted.take (sorted.length - backupRetentionCount)).filter (fun backup => stuck backup.1) ++
        sorted.drop (sorted.length - backupRetentionCount)).Sublist sorted := by
      conv_rhs => rw [← List.take_append_drop (sorted.length - backupRetentionCount) sorted]
      exact List.filter_sublist.append (List.Sublist.refl _)
    have ordered := (byName_pairwise backups).sublist (named ▸ kept)
    have tail : sorted.drop (sorted.length - backupRetentionCount) ≠ [] := by
      rw [ne_eq, List.drop_eq_nil_iff, backupRetentionCount]
      rw [backupRetentionCount] at many
      omega
    rw [newestBackup, byName, List.mergeSort_of_pairwise ordered, newestBackup, ← named,
      List.getLast?_append_of_ne_nil _ tail, List.getLast?_drop, if_neg]
    rw [backupRetentionCount] at many ⊢
    omega

section
variable {sha256Hex : String → String} {node : Node} {caller : Caller} {fingerprint content : String} {io : CommitIo}

theorem requireAuth_ok (node : Node) (caller : Caller) : requireAuth node caller = .ok () ↔ node.admits caller = true := by
  rw [requireAuth, Node.admits, Bool.and_eq_true]
  split
  · split
    · simp [*]
    · simp [*]
  · simp [*]

def Node.committed (node : Node) (content : String) (io : CommitIo) : Node where
  path := node.path
  active := some content
  pending := none
  backups := pruneOldBackups io.listable io.stuck (storeBackup node.backups io.stamp node.active)
  memory := node.memory
  rejectDefault := node.rejectDefault
  acceptDefault := node.acceptDefault
  recorded := node.recorded
  stores := if firstLine content = "" then node.stores
    else (reencryptAllAtRest node.secret (firstLine content) io.passes node.stores).1

theorem apiRotateCommit_acknowledged {ack : CommitAck}
    (answered : (apiRotateCommit sha256Hex node caller fingerprint io).2 = .ok ack) :
    ∃ content, node.pending = some content ∧
      (apiRotateCommit sha256Hex node caller fingerprint io).1 = node.committed content io := by
  rw [apiRotateCommit] at answered ⊢
  cases auth : requireAuth node caller with
  | error refusal =>
    simp only [auth] at answered
    cases answered
  | ok granted =>
    simp only [auth] at answered ⊢
    cases pending : node.pending with
    | none =>
      simp only [readPending, pending] at answered
      cases answered
    | some content =>
      refine ⟨content, rfl, ?_⟩
      cases read : io.read with
      | some e =>
        simp only [readPending, pending, read] at answered
        cases answered
      | none =>
        simp only [readPending, pending, read] at answered ⊢
        split at answered
        · cases answered
        · rename_i same
          rw [if_neg same]
          cases active : node.active with
          | none =>
            simp only [Node.backedUp, active] at answered ⊢
            cases rename : io.rename with
            | some e =>
              simp only [rename] at answered
              cases answered
            | none =>
              simp only [Node.committed, storeBackup, active]
              split
              · simp [Node.pruned, Node.promoted, pending]
              · simp [Node.pruned, Node.promoted, Node.rekeyed, pending]
          | some held =>
            simp only [Node.backedUp, active] at answered ⊢
            cases backup : io.backup with
            | failed e =>
              simp only [backup, writeFile] at answered
              cases answered
            | torn e length =>
              simp only [backup, writeFile] at answered
              cases answered
            | done =>
              simp only [backup, writeFile] at answered ⊢
              cases rename : io.rename with
              | some e =>
                simp only [rename] at answered
                cases answered
              | none =>
                simp only [Node.committed, active]
                split
                · simp [Node.pruned, Node.promoted, pending]
                · simp [Node.pruned, Node.promoted, Node.rekeyed, pending]

theorem backedUp_pending (node : Node) (io : CommitIo) : (node.backedUp io).1.pending = node.pending := by
  rw [Node.backedUp]
  split
  · rfl
  · rfl

theorem putBack_pending (node : Node) (io : CommitIo) : (node.putBack io).pending = node.pending := by
  rw [Node.putBack]
  split
  · rfl
  · rfl

theorem apiRotateCommit_refused {refusal : Refusal}
    (answered : (apiRotateCommit sha256Hex node caller fingerprint io).2 = .error refusal) :
    (apiRotateCommit sha256Hex node caller fingerprint io).1.pending = node.pending := by
  rw [apiRotateCommit] at answered ⊢
  split
  · rfl
  · split
    · rfl
    · simp only
      split
      · rfl
      · split
        · rename_i backedUp e tried
          exact (congrArg (fun outcome => outcome.1.pending) tried).symm.trans (backedUp_pending node io)
        · rename_i backedUp tried
          have kept : backedUp.pending = node.pending :=
            (congrArg (fun outcome => outcome.1.pending) tried).symm.trans (backedUp_pending node io)
          split
          · exact (putBack_pending backedUp io).trans kept
          · simp_all

def Node.anchor (node : Node) (io : CommitIo) : Option (String × String) :=
  newestBackup (storeBackup node.backups io.stamp node.active)

/-- The secret file after a commit of the given content and a request to roll it back. -/
def Node.activeAfter (node : Node) (content : String) (io : CommitIo) (caller : Caller) (restore : WriteFate) :
    Option String :=
  if ({ node with active := some content } : Node).admits caller then
    match node.anchor io with
    | some (_, backup) => (writeFile (some content) backup restore).1
    | none => some content
  else some content

/-- What the secret of each store's sealed values is after a commit, if they are left. -/
def Node.keyLeft (node : Node) (content : String) (io : CommitIo) (store : Store) : Option String :=
  if firstLine content = "" then some node.secret
  else SecretRotation.keyLeft store node.secret (firstLine content) (io.passes store)

theorem Node.committed_stores (node : Node) (content : String) (io : CommitIo) (store : Store) (final : String) :
    Preserved (node.stores store) node.secret ((node.committed content io).stores store) final ↔
      ((∃ text, Field.sealed node.secret text ∈ node.stores store) → node.keyLeft content io store = some final) := by
  simp only [Node.committed, Node.keyLeft]
  split
  · rw [preserved_same]
    simp only [Option.some.injEq]
  · exact preserved_reencryptAtRest

theorem apiRotateRollback_committed (node : Node) (caller : Caller) (io : RollbackIo) :
    (apiRotateRollback node caller "committed" io).1 =
      { node with active := if node.admits caller then
          match newestBackup node.backups with
          | some (_, content) => (writeFile node.active content io.restore).1
          | none => node.active
        else node.active } := by
  rw [apiRotateRollback]
  cases admitted : node.admits caller with
  | false =>
    cases auth : requireAuth node caller with
    | error refusal => rfl
    | ok granted => exact absurd ((requireAuth_ok node caller).mp auth) (by simp [admitted])
  | true =>
    rw [(requireAuth_ok node caller).mpr admitted]
    have notPending : ¬"committed" = "pending" := by decide
    simp only [notPending, if_false, if_true]
    cases newestBackup node.backups with
    | none => rfl
    | some backup =>
      obtain ⟨stamp, content⟩ := backup
      cases io.restore with
      | done => rfl
      | failed e => rfl
      | torn e length => rfl

/-- After a commit and its rollback, every credential that could be read still reads
the same exactly when each store that held sealed ones was left under the secret that
is active in the end. -/
theorem rollback_preserves_iff {ack : CommitAck} (revoker : Caller) (undo : RollbackIo)
    (pending : node.pending = some content)
    (answered : (apiRotateCommit sha256Hex node caller fingerprint io).2 = .ok ack) :
    let after := (apiRotateRollback (apiRotateCommit sha256Hex node caller fingerprint io).1 revoker "committed" undo).1
    (∀ store, Preserved (node.stores store) node.secret (after.stores store) after.secret) ↔
      ∀ store, (∃ text, Field.sealed node.secret text ∈ node.stores store) →
        node.keyLeft content io store = some (loadClusterSecret (node.activeAfter content io revoker undo.restore)) := by
  intro after
  obtain ⟨promoted, held, result⟩ := apiRotateCommit_acknowledged answered
  rw [pending, Option.some.injEq] at held
  subst held
  have final : after = { node.committed content io with active := node.activeAfter content io revoker undo.restore } := by
    simp only [after, result, apiRotateRollback_committed]
    rw [Node.committed, newestBackup_pruneOldBackups]
    rfl
  rw [final]
  exact forall_congr' fun store => node.committed_stores content io store _

end

def keeper : Node := { settledNode with
  pending := some secondSecret
  stores := fun store => if store = .dnsProviders then [.sealed firstSecret "dns_cloudflare_api_token = abc123"] else [] }

def keeperCommitted : Node × Except Refusal CommitAck :=
  apiRotateCommit sampleSha256Hex keeper holder (sampleSha256Hex secondSecret) (smoothCommit "20260901120000")

theorem keeper_acknowledged : keeperCommitted.2 =
    .ok ⟨keeper.backupPath "20260901120000", keeper.path, true, commitMessage⟩ := by
  decide +kernel

theorem rollback_preserves_iff_sample :
    (∀ store, Preserved (keeper.stores store) keeper.secret
        ((apiRotateRollback keeperCommitted.1 holder "committed" smoothRollback).1.stores store)
        (apiRotateRollback keeperCommitted.1 holder "committed" smoothRollback).1.secret) ↔
      ∀ store, (∃ text, Field.sealed keeper.secret text ∈ keeper.stores store) →
        keeper.keyLeft secondSecret (smoothCommit "20260901120000") store = some (loadClusterSecret
          (keeper.activeAfter secondSecret (smoothCommit "20260901120000") holder smoothRollback.restore)) :=
  rollback_preserves_iff holder smoothRollback rfl keeper_acknowledged

/-- The rollback brings the first secret back, the credential stays sealed under the second. -/
theorem rollback_strands :
    ¬∀ store, Preserved (keeper.stores store) keeper.secret
      ((apiRotateRollback keeperCommitted.1 holder "committed" smoothRollback).1.stores store)
      (apiRotateRollback keeperCommitted.1 holder "committed" smoothRollback).1.secret := by
  intro preserved
  have before : (Field.sealed firstSecret "dns_cloudflare_api_token = abc123").reads keeper.secret =
      some "dns_cloudflare_api_token = abc123" := by decide +kernel
  obtain ⟨kept, found, reads⟩ := preserved .dnsProviders 0 _ _ rfl before
  have after : (((apiRotateRollback keeperCommitted.1 holder "committed" smoothRollback).1.stores .dnsProviders)[0]?).map
      (Field.reads (apiRotateRollback keeperCommitted.1 holder "committed" smoothRollback).1.secret) = some none := by
    decide +kernel
  rw [found, Option.map_some, reads] at after
  cases after

end SecretRotation
