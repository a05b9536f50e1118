import Mathlib.Data.Int.CardIntervalMod
import Mathlib.Data.Nat.Periodic

/-! Round robin by counters. A rule that takes each so-manieth of what reaches it lets the others
through, and a chain of such rules gives each the same share. -/

namespace RoundRobin

/-- Of `t` that reach a rule that takes each `m`-th from the first on, so many are let through. -/
def passed (m t : Nat) : Nat := t / m * (m - 1) + (t % m - 1)

variable {m n t : Nat}

theorem passed_zero (m : Nat) : passed m 0 = 0 := by
  rw [passed, Nat.zero_div, Nat.zero_mod, Nat.zero_mul]

theorem passed_taken (positive : 0 < m) (taken : t % m = 0) : passed m (t + 1) = passed m t := by
  obtain ⟨q, rfl⟩ := Nat.dvd_of_mod_eq_zero taken
  unfold passed
  rcases Nat.lt_or_ge 1 m with more | one
  · rw [Nat.mul_add_div positive, Nat.mul_add_mod, Nat.div_eq_of_lt more, Nat.mod_eq_of_lt more, Nat.mul_div_cancel_left q positive,
      Nat.mul_mod_right, Nat.zero_sub, Nat.add_zero, Nat.add_zero, Nat.add_zero]
  · obtain rfl : m = 1 := by omega
    omega

theorem passed_through (positive : 0 < m) (through : t % m ≠ 0) : passed m (t + 1) = passed m t + 1 := by
  have small := Nat.mod_lt t positive
  have parts := Nat.div_add_mod t m
  have shape : t + 1 = m * (t / m) + (t % m + 1) := by omega
  unfold passed
  rw [shape, Nat.mul_add_div positive, Nat.mul_add_mod]
  rcases Nat.lt_or_ge (t % m + 1) m with inside | last
  · rw [Nat.div_eq_of_lt inside, Nat.mod_eq_of_lt inside, Nat.add_zero]
    omega
  · obtain same : t % m + 1 = m := by omega
    rw [same, Nat.div_self positive, Nat.mod_self, Nat.add_mul, Nat.one_mul]
    omega

theorem passed_mod (positive : 0 < m) (through : t % m ≠ 0) : passed m t % (m - 1) = t % m - 1 := by
  have small := Nat.mod_lt t positive
  rw [passed, Nat.mul_add_mod_self_right, Nat.mod_eq_of_lt (by omega)]

theorem card_window {r : Nat} (small : r < n) (start k : Nat) :
    ((Finset.Ico start (start + n * k)).filter fun i => i % n = r).card = k := by
  have positive : 0 < n := Nat.zero_lt_of_lt small
  have periodic : Function.Periodic (fun i => i % n = r) (n * k) := by
    intro i
    dsimp only
    rw [Nat.add_mul_mod_self_left]
  have counted : Nat.count (fun i => i % n = r) (n * k) = k := by
    have counts := Nat.count_modEq_card (n * k) positive r
    rw [Nat.mul_div_cancel_left k positive, Nat.mul_mod_right, if_neg (Nat.not_lt_zero _), Nat.add_zero] at counts
    have same : ∀ i, i ≡ r [MOD n] ↔ i % n = r := by
      intro i
      rw [Nat.ModEq, Nat.mod_eq_of_lt small]
    simpa only [same] using counts
  rw [Nat.filter_Ico_card_eq_of_periodic _ _ _ periodic, counted]

section
variable {σ : Type*} [DecidableEq σ] {origin : Nat → σ} {i j : Nat}

def before (origin : Nat → σ) (i : Nat) : Nat := Nat.count (fun j => origin j = origin i) i

/-- Each `n`, counted from the first, are of one origin. -/
def Aligned (n : Nat) (origin : Nat → σ) : Prop := ∀ i, origin i = origin (n * (i / n))

theorem count_block {s : σ} {q r : Nat} (same : ∀ k < r, origin (n * q + k) = origin (n * q)) :
    Nat.count (fun j => origin j = s) (n * q + r) = Nat.count (fun j => origin j = s) (n * q) + if origin (n * q) = s then r else 0 := by
  rw [Nat.count_add]
  congr 1
  split
  · rename_i here
    rw [Nat.count_iff_forall.mpr]
    intro k less
    rw [same k less, here]
  · rename_i apart
    rw [Nat.count_of_forall_not]
    intro k less
    rw [same k less]
    exact apart

theorem dvd_count {s : σ} {q : Nat} (aligned : ∀ i < n * q, origin i = origin (n * (i / n))) :
    n ∣ Nat.count (fun j => origin j = s) (n * q) := by
  induction q with
  | zero => simp
  | succ q ih =>
    have earlier := ih fun i less => aligned i (Nat.lt_of_lt_of_le less (Nat.mul_le_mul_left n (Nat.le_succ q)))
    have same : ∀ k < n, origin (n * q + k) = origin (n * q) := by
      intro k less
      have whole := aligned (n * q + k) (by rw [Nat.mul_succ]; omega)
      rwa [Nat.mul_add_div (Nat.zero_lt_of_lt less), Nat.div_eq_of_lt less, Nat.add_zero] at whole
    rw [Nat.mul_succ, count_block same]
    split
    · exact Nat.dvd_add earlier (Nat.dvd_refl n)
    · exact earlier

theorem Aligned.before_mod (positive : 0 < n) (aligned : Aligned n origin) (i : Nat) : before origin i % n = i % n := by
  have parts := Nat.div_add_mod i n
  have small := Nat.mod_lt i positive
  have same : ∀ k < i % n, origin (n * (i / n) + k) = origin (n * (i / n)) := by
    intro k less
    have whole := aligned (n * (i / n) + k)
    rwa [Nat.mul_add_div positive, Nat.div_eq_of_lt (Nat.lt_trans less small), Nat.add_zero] at whole
  obtain ⟨c, counted⟩ := dvd_count (s := origin i) (q := i / n) fun j _ => aligned j
  have block := count_block (s := origin i) same
  rw [parts, counted, if_pos (aligned i).symm] at block
  rw [before, block, Nat.mul_add_mod, Nat.mod_mod]

/-- Two of a block are never both the first of their round when all are of one origin, and only then. -/
theorem aligned_of_single (positive : 0 < n)
    (single : ∀ i j, i / n = j / n → before origin i % n = 0 → before origin j % n = 0 → i = j) : Aligned n origin := by
  have blocks : ∀ q, ∀ i < n * q, origin i = origin (n * (i / n)) := by
    intro q
    induction q with
    | zero => exact fun i less => absurd less (Nat.not_lt_zero i)
    | succ q ih =>
      have inside : ∀ r < n, origin (n * q + r) = origin (n * q) := by
        intro r
        induction r using Nat.strong_induction_on with
        | _ r earlier =>
          intro less
          by_contra apart
          have first : before origin (n * q) % n = 0 := by
            exact Nat.mod_eq_zero_of_dvd (dvd_count ih)
          have also : before origin (n * q + r) % n = 0 := by
            rw [before, count_block fun k below => earlier k below (Nat.lt_trans below less), if_neg (Ne.symm apart), Nat.add_zero]
            exact Nat.mod_eq_zero_of_dvd (dvd_count ih)
          have same := single (n * q + r) (n * q)
            (by rw [Nat.mul_add_div positive, Nat.div_eq_of_lt less, Nat.mul_div_cancel_left q positive, Nat.add_zero]) also first
          exact apart (by rw [same])
      intro i less
      rcases Nat.lt_or_ge i (n * q) with before_ | here
      · exact ih i before_
      · obtain ⟨r, rfl⟩ := Nat.exists_eq_add_of_le here
        have small : r < n := by
          rw [Nat.mul_succ] at less
          omega
        rw [inside r small, Nat.mul_add_div positive, Nat.div_eq_of_lt small, Nat.add_zero]
  intro i
  refine blocks (i / n + 1) i ?_
  have parts := Nat.div_add_mod i n
  have small := Nat.mod_lt i positive
  rw [Nat.mul_succ]
  omega

end

end RoundRobin
