import WolfStack.SecretRotation.Rollback

/-! The active secret after a commit and its rollback. The rollback restores the backup whose
name sorts last, which need not be one that the commit made. -/

namespace SecretRotation
open Auth

theorem newestBackup_iff {backups : List (String × String)} (distinct : (backups.map Prod.fst).Nodup) (newest : String × String) :
    newestBackup backups = some newest ↔ newest ∈ backups ∧ ∀ backup ∈ backups, backup.1 ≤ newest.1 := by
  have last : ∀ found, newestBackup backups = some found → found ∈ backups ∧ ∀ backup ∈ backups, backup.1 ≤ found.1 := by
    intro found newest
    obtain ⟨front, sorted⟩ := List.getLast?_eq_some_iff.mp newest
    have ordered := byName_pairwise backups
    rw [sorted, List.pairwise_append] at ordered
    have same : ∀ backup, backup ∈ backups ↔ backup ∈ front ++ [found] := fun backup => by
      rw [← sorted, byName, List.mem_mergeSort]
    refine ⟨(same found).mpr (by simp), ?_⟩
    intro backup member
    obtain inside | own := List.mem_append.mp ((same backup).mp member)
    · exact of_decide_eq_true (ordered.2.2 backup inside found List.mem_cons_self)
    · exact List.mem_singleton.mp own ▸ String.le_refl _
  constructor
  · exact last newest
  · intro greatest
    cases found : newestBackup backups with
    | none =>
      have none_ : byName backups = [] := List.getLast?_eq_none_iff.mp found
      have member : newest ∈ byName backups := List.mem_mergeSort.mpr greatest.1
      rw [none_] at member
      cases member
    | some other =>
      obtain ⟨member, above⟩ := last other found
      have name : other.1 = newest.1 := String.le_antisymm (greatest.2 other member) (above newest greatest.1)
      rw [List.inj_on_of_nodup_map distinct member greatest.1 name]

theorem newestBackup_storeBackup {backups : List (String × String)} (distinct : (backups.map Prod.fst).Nodup)
    (stamp text : String) (newest : String × String) :
    newestBackup (storeBackup backups stamp (some text)) = some newest ↔
      newest = (stamp, text) ∧ (∀ backup ∈ backups, backup.1 ≤ stamp) ∨
        newestBackup backups = some newest ∧ stamp < newest.1 := by
  have stored : ((storeBackup backups stamp (some text)).map Prod.fst).Nodup := by
    rw [storeBackup, List.map_cons, List.nodup_cons]
    refine ⟨?_, distinct.sublist (List.filter_sublist.map _)⟩
    intro member
    obtain ⟨backup, kept, same⟩ := List.mem_map.mp member
    exact of_decide_eq_true (List.mem_filter.mp kept).2 same
  have member : ∀ backup, backup ∈ storeBackup backups stamp (some text) ↔
      backup = (stamp, text) ∨ backup ∈ backups ∧ backup.1 ≠ stamp := fun backup => by
    rw [storeBackup, List.mem_cons, List.mem_filter, decide_eq_true_eq]
  have below : ∀ {first second : String}, first < second → first ≤ second := fun earlier =>
    (String.le_total _ _).resolve_right (String.not_le.mpr earlier)
  rw [newestBackup_iff stored, newestBackup_iff distinct]
  simp only [member]
  constructor
  · intro greatest
    obtain ⟨rfl | ⟨inside, apart⟩, above⟩ := greatest
    · refine .inl ⟨rfl, ?_⟩
      intro backup inside
      by_cases same : backup.1 = stamp
      · exact same ▸ String.le_refl _
      · exact above backup (.inr ⟨inside, same⟩)
    · have later : stamp < newest.1 := String.not_le.mp fun back => apart (String.le_antisymm back (above _ (.inl rfl)))
      refine .inr ⟨⟨inside, ?_⟩, later⟩
      intro backup other
      by_cases same : backup.1 = stamp
      · rw [same]
        exact below later
      · exact above backup (.inr ⟨other, same⟩)
  · intro either
    obtain ⟨rfl, above⟩ | ⟨⟨inside, above⟩, later⟩ := either
    · refine ⟨.inl rfl, ?_⟩
      intro backup other
      obtain rfl | ⟨before, -⟩ := other
      · exact String.le_refl _
      · exact above backup before
    · refine ⟨.inr ⟨inside, fun same => String.not_le.mpr later (same ▸ String.le_refl _)⟩, ?_⟩
      intro backup other
      obtain rfl | ⟨before, -⟩ := other
      · exact below later
      · exact above backup before

section
variable {sha256Hex : String → String} {node : Node} {caller : Caller} {fingerprint content : String} {io : CommitIo}

def Restores (after : Node × Except Refusal RollbackAck) (secret : String) : Prop :=
  (∃ ack, after.2 = .ok ack) ∧ after.1.secret = secret

theorem apiRotateRollback_restores (node : Node) (caller : Caller) (undo : RollbackIo) (secret : String) :
    Restores (apiRotateRollback node caller "committed" undo) secret ↔
      node.admits caller = true ∧ undo.restore = .done ∧
        ∃ stamp text, newestBackup node.backups = some (stamp, text) ∧ loadClusterSecret (some text) = secret := by
  have notPending : ¬"committed" = "pending" := by decide
  rw [Restores, apiRotateRollback]
  cases admitted : node.admits caller with
  | false =>
    cases auth : requireAuth node caller with
    | error refusal => simp
    | ok granted => exact absurd ((requireAuth_ok node caller).mp auth) (by simp [admitted])
  | true =>
    rw [(requireAuth_ok node caller).mpr admitted]
    simp only [notPending, if_false, if_true]
    cases newest : newestBackup node.backups with
    | none => simp
    | some backup =>
      obtain ⟨stamp, text⟩ := backup
      cases fate : undo.restore with
      | done => simp [writeFile, Node.secret]
      | failed e => simp [writeFile]
      | torn e length => simp [writeFile]

/-- A commit that went through is undone by its rollback exactly if the request is admitted, the
copy succeeds, and the commit's own backup is the one restored, or another holds the same secret. -/
theorem rollback_restores_iff {ack : CommitAck} (distinct : (node.backups.map Prod.fst).Nodup) (revoker : Caller)
    (undo : RollbackIo) (pending : node.pending = some content)
    (answered : (apiRotateCommit sha256Hex node caller fingerprint io).2 = .ok ack) :
    Restores (apiRotateRollback (apiRotateCommit sha256Hex node caller fingerprint io).1 revoker "committed" undo) node.secret ↔
      ({ node with active := some content } : Node).admits revoker = true ∧ undo.restore = .done ∧
        (node.active ≠ none ∧ (∀ backup ∈ node.backups, backup.1 ≤ io.stamp) ∨
          ∃ stamp text, newestBackup node.backups = some (stamp, text) ∧ (node.active = none ∨ io.stamp < stamp) ∧
            loadClusterSecret (some text) = node.secret) := by
  obtain ⟨promoted, held, result⟩ := apiRotateCommit_acknowledged answered
  rw [pending, Option.some.injEq] at held
  subst held
  have admits : (node.committed content io).admits revoker = ({ node with active := some content } : Node).admits revoker := rfl
  have backups : newestBackup (node.committed content io).backups =
      newestBackup (storeBackup node.backups io.stamp node.active) := newestBackup_pruneOldBackups _ _ _
  rw [result, apiRotateRollback_restores, admits, backups]
  refine and_congr_right fun _ => and_congr_right fun _ => ?_
  cases active : node.active with
  | none => simp [storeBackup]
  | some text =>
    have own : loadClusterSecret (some text) = node.secret := by rw [Node.secret, active]
    simp only [newestBackup_storeBackup distinct, Prod.mk.injEq]
    constructor
    · intro restored
      obtain ⟨stamp, other, ⟨⟨rfl, rfl⟩, above⟩ | ⟨newest, later⟩, same⟩ := restored
      · exact .inl ⟨Option.some_ne_none _, above⟩
      · exact .inr ⟨stamp, other, newest, .inr later, same⟩
    · intro either
      obtain ⟨-, above⟩ | ⟨stamp, other, newest, absent | later, same⟩ := either
      · exact ⟨io.stamp, text, .inl ⟨⟨rfl, rfl⟩, above⟩, own⟩
      · cases absent
      · exact ⟨stamp, other, .inr ⟨newest, later⟩, same⟩

end

def rotated : Node := { settledNode with
  pending := some secondSecret
  backups := [("20260901120000", clusterSecret)] }

def rotatedAt (stamp : String) : Node × Except Refusal CommitAck :=
  apiRotateCommit sampleSha256Hex rotated holder (sampleSha256Hex secondSecret) (smoothCommit stamp)

theorem rotatedAt_acknowledged (stamp : String) :
    (rotatedAt stamp).2 = .ok ⟨rotated.backupPath stamp, rotated.path, true, commitMessage⟩ := by
  rfl

theorem rollback_restores_iff_sample :
    Restores (apiRotateRollback (rotatedAt "20260902120000").1 holder "committed" smoothRollback) rotated.secret :=
  (rollback_restores_iff (by decide) holder smoothRollback rfl (rotatedAt_acknowledged "20260902120000")).mpr
    ⟨by decide, rfl, .inl ⟨Option.some_ne_none _, by decide⟩⟩

/-- The commit's own backup sorts before the earlier one, whose secret the rollback brings back. -/
theorem rotated_restores_other :
    ¬Restores (apiRotateRollback (rotatedAt "20260829120000").1 holder "committed" smoothRollback) rotated.secret := by
  rw [apiRotateRollback_restores]
  intro restored
  obtain ⟨-, -, stamp, text, newest, same⟩ := restored
  have backups : (rotatedAt "20260829120000").1.backups =
      [("20260829120000", firstSecret), ("20260901120000", clusterSecret)] := by decide
  have found : newestBackup (rotatedAt "20260829120000").1.backups = some ("20260901120000", clusterSecret) := by
    rw [backups, newestBackup_iff (by decide)]
    exact ⟨by simp, by decide⟩
  rw [found, Option.some.injEq, Prod.mk.injEq] at newest
  rw [← newest.2] at same
  exact absurd same (by decide)

end SecretRotation
