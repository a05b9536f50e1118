import WolfStack.Router.Process

/-! A load of the router's configuration that nothing crosses, as at the start of the process:
when it fails, and what it leaves of the file and the latch. -/

namespace Router
open Effects

variable {Config : Type} {serde : Serde Config}

def File.Parses (serde : Serde Config) (file : File) : Prop := ∃ raw cfg, file = .text raw ∧ serde.fromStr raw = .ok cfg

/-- Writes are done. -/
def Obliging (chances : Nat → Chance) : Prop := ∀ index, (chances index).written = .ok ()

/-- What a load that goes well leaves: the file reads as what was loaded. -/
def Adopted (serde : Serde Config) (cfg : Config) (s : Host Config) : Prop :=
  ∃ raw, s.disk.live = .text raw ∧ serde.fromStr raw = .ok cfg

abbrev alone (chances : Nat → Chance) {α : Type} (program : Program (Section Config) α) (at_ : Host Config × Nat) :
    α × Host Config × Nat :=
  program.drive (fun at_ operation => Host.step chances at_ operation) at_

theorem replaceLive_alone {chances : Nat → Chance} {at_ : Host Config × Nat} {writer : Writer} {raw : String} {cfg : Config}
    (reads : serde.fromStr raw = .ok cfg) :
    (Host.step chances at_ (.replaceLive writer raw)).2.1.latch = at_.1.latch ∧
      (Obliging chances → Adopted serde cfg (Host.step chances at_ (.replaceLive writer raw)).2.1) := by
  simp only [Host.step, Host.run]
  split
  · exact ⟨rfl, fun _ => ⟨raw, rfl, reads⟩⟩
  · rename_i e failed
    refine ⟨rfl, fun obliging => ?_⟩
    rw [obliging] at failed
    cases failed

theorem tryBackups_alone (chances : Nat → Chance) (backups : List Nat) (at_ : Host Config × Nat) :
    match alone chances (tryBackups serde backups) at_ with
    | (none, after, _) => after = at_.1
    | (some (ts, cfg), after, _) => after.latch = at_.1.latch ∧ (Obliging chances → Adopted serde cfg after) ∧
      (File.find at_.1.disk.backups ts).Parses serde := by
  induction backups generalizing at_ with
  | nil => rfl
  | cons ts older ih =>
    have next := ih (at_.1, at_.2 + 1)
    simp only [tryBackups, Program.bind_eq, Program.send_bind, alone, Program.drive_request, Host.step, Host.run] at next ⊢
    cases found : File.find at_.1.disk.backups ts with
    | absent => exact next
    | unreadable e => exact next
    | text raw =>
      simp only
      cases reads : serde.fromStr raw with
      | error e => exact next
      | ok cfg =>
        obtain ⟨latch, adopted⟩ := @replaceLive_alone _ _ chances (at_.1, at_.2 + 1) .recovery _ _ reads
        exact ⟨latch, adopted, raw, cfg, found, reads⟩

/-- What a load comes to: it fails and sets the latch, it finds nothing, or it has a
configuration, which the file then reads as. -/
def Concluded (serde : Serde Config) (chances : Nat → Chance) (loaded : Config × LoadOutcome) (after : Host Config) : Prop :=
  if loaded.2.failed then after.latch = true else loaded.2 = .fresh ∨ (Obliging chances → Adopted serde loaded.1 after)

theorem recover_alone (chances : Nat → Chance) (raw parseError : String) (at_ : Host Config × Nat) :
    Concluded serde chances (alone chances (recover serde raw parseError) at_).1 (alone chances (recover serde raw parseError) at_).2.1 := by
  simp only [recover, Program.bind_eq, Program.send_bind, alone, Program.drive_request]
  generalize Host.step chances at_ (.quarantine raw) = quarantined
  obtain ⟨quarantinePath, at_⟩ := quarantined
  simp only
  cases torn : tornWrite serde raw parseError with
  | some found =>
    obtain ⟨cfg, cleaned⟩ := found
    have reads : serde.fromStr cleaned = .ok cfg := by
      unfold tornWrite at torn
      split at torn
      · exact serde.firstValue_reads raw cfg cleaned torn
      · cases torn
    obtain ⟨-, adopted⟩ := @replaceLive_alone _ _ chances at_ .recovery _ _ reads
    exact .inr fun obliging => adopted obliging
  | none =>
    simp only [tryAutoRecoverFromBackup, Program.bind_eq, Program.send_bind, Program.request_bind, Program.drive_request, Program.drive_bind]
    generalize Host.step chances at_ .readBackups = listed
    have tried := @tryBackups_alone _ serde chances (listed.1.mergeSort fun a b => b ≤ a) listed.2
    unfold alone at tried
    generalize (tryBackups serde (listed.1.mergeSort fun a b => b ≤ a)).drive (fun at_ operation => Host.step chances at_ operation)
      listed.2 = result at tried ⊢
    obtain ⟨found, after, index⟩ := result
    cases found with
    | none => exact rfl
    | some found => exact .inr fun obliging => tried.2.1 obliging

theorem load_alone (chances : Nat → Chance) (at_ : Host Config × Nat) :
    Concluded serde chances (alone chances (loadWithStatus serde) at_).1 (alone chances (loadWithStatus serde) at_).2.1 := by
  simp only [loadWithStatus, Program.bind_eq, Program.send_bind, alone, Program.drive_request, Host.step, Host.run]
  cases found : at_.1.disk.live with
  | absent => exact .inl rfl
  | unreadable e => exact rfl
  | text raw =>
    simp only [Program.drive_request]
    cases reads : serde.fromStr raw with
    | ok cfg => exact .inr fun _ => ⟨raw, found, reads⟩
    | error e => exact recover_alone chances raw e _

variable {chances : Nat → Chance}

theorem Host.new_latches (s : Host Config) (fallback : (s.new serde chances).2.memory.fallback = true) :
    (s.new serde chances).2.latch = true := by
  have concluded := @load_alone _ serde chances ({ s with latch := false }, 0)
  exact (if_pos fallback).mp concluded

variable [DecidableEq Config]

theorem Host.new_agrees (s : Host Config) (obliging : Obliging chances)
    (well : ¬((s.new serde chances).1.failed || (s.new serde chances).1 == .fresh) = true) :
    (s.new serde chances).2.agrees serde = true := by
  rw [Bool.or_eq_true, not_or, beq_iff_eq] at well
  have concluded := @load_alone _ serde chances ({ s with latch := false }, 0)
  rcases (if_neg well.1).mp concluded with fresh | adopted
  · exact absurd fresh well.2
  · obtain ⟨raw, live, reads⟩ := adopted obliging
    unfold agrees
    have now : (s.new serde chances).2.disk.live = .text raw := live
    rw [now]
    simp only [reads]
    exact decide_eq_true rfl

end Router
